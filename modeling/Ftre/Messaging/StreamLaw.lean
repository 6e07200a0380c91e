import Ftre.Messaging.StreamFlow

/-!
The seam in every run: each step of the stream keeps the locks, the registrations and the flow to
every socket.
-/

namespace Ftre.Messaging

open Lib

/-! ### Steps -/

namespace LiveStream

variable {firstSeq : String → Nat} {before after : LiveStream}

structure Seam (firstSeq : String → Nat) (stream : LiveStream) : Prop where
  locks : Locks stream.outputLock stream.handlers stream.dispatch
  registered : Registered stream.connections stream.handlers stream.watches
  flow : Flow firstSeq stream.nextSeq stream.onWay stream.handlers stream.watches

theorem seam_start (firstSeq : String → Nat) : Seam firstSeq (start firstSeq) where
  locks := ⟨nofun, nofun⟩
  registered := ⟨nofun, fun _ _ present => absurd present List.not_mem_nil⟩
  flow :=
    { started := fun _ => Nat.le_refl _
      numbered := fun _ _ _ present => absurd present List.not_mem_nil
      reading := nofun
      complete := fun _ _ present => absurd present List.not_mem_nil
      inOrder := fun _ _ present => absurd present List.not_mem_nil }

theorem onWay_appendEvent (stream : LiveStream) (session named : String) (socket : Nat) :
    (stream.appendEvent session).onWay named socket = stream.onWay named socket ++
      if session = named then [stream.nextSeq session] else [] := by
  unfold onWay appendEvent
  dsimp only
  rw [← List.append_assoc, List.filterMap_append]
  congr 1
  by_cases same : session = named
  · rw [if_pos same]
    simp [Frame.eventOf, same]
  · rw [if_neg same]
    simp [Frame.eventOf, same]

variable {frame : Frame} {remaining : List Nat} {socket : Nat}

theorem onWay_sending (stream : LiveStream) (session : String) (socket : Nat)
    (sending : stream.dispatch = .sending frame remaining) :
    stream.onWay session socket =
      (if socket ∈ remaining then (frame.eventOf session).toList else []) ++
        (stream.outbound ++ stream.forwardQueue).filterMap (Frame.eventOf session) := by
  unfold onWay
  rw [sending, List.append_assoc, List.filterMap_append]
  congr 1
  by_cases listed : socket ∈ remaining
  · have held : (Dispatch.sending frame remaining).toward socket = [frame] := if_pos listed
    rw [held, if_pos listed]
    cases event : frame.eventOf session with
    | none => simp [event]
    | some number => simp [event]
  · have none : (Dispatch.sending frame remaining).toward socket = [] := if_neg listed
    rw [none, if_neg listed]
    rfl

theorem mem_remaining {socket other : Nat} (apart : other ≠ socket) :
    other ∈ remaining.filter (· ≠ socket) ↔ other ∈ remaining := by
  simp [apart]

theorem not_mem_remaining : socket ∉ remaining.filter (· ≠ socket) := by
  simp

theorem Seam.not_reading (seam : Seam firstSeq before)
    (sending : before.dispatch = .sending frame remaining) {seq : Option Int} :
    before.handlers socket ≠ .reading frame.session seq := by
  intro reads
  have socketHas := seam.locks.locked socket frame.session (by rw [reads]; rfl)
  rw [seam.locks.sending frame remaining sending] at socketHas
  cases socketHas

theorem seam_lockTaken (seam : Seam firstSeq before) (waiting : before.dispatch = .waiting frame)
    (free : before.outputLock frame.session = none) :
    Seam firstSeq { before.lock frame.session (some .dispatcher) with
      dispatch := .sending frame (before.connections frame.session) } where
  locks := seam.locks.startSending free
  registered := seam.registered
  flow := by
    have held : ∀ session socket, before.onWay session socket =
        (frame.eventOf session).toList ++
          (before.outbound ++ before.forwardQueue).filterMap (Frame.eventOf session) := by
      intro session socket
      unfold onWay
      rw [waiting, List.append_assoc, List.filterMap_append]
      congr 1
    refine seam.flow.relay ?_ ?_
    · intro session socket number member
      rw [onWay_sending _ session socket rfl] at member
      rw [held]
      rcases List.mem_append.mp member with inHand | queued
      · by_cases listed : socket ∈ before.connections frame.session
        · rw [if_pos listed] at inHand
          exact List.mem_append_left _ inHand
        · rw [if_neg listed] at inHand
          cases inHand
      · exact List.mem_append_right _ queued
    · intro session socket attentive
      rw [onWay_sending _ session socket rfl, held]
      by_cases named : frame.session = session
      · have connected := seam.registered.of_attentive attentive
        rw [← named] at connected
        rw [if_pos connected]
        rfl
      · have other : frame.eventOf session = none := if_neg named
        rw [other]
        split <;> rfl

theorem seam_sendTo (seam : Seam firstSeq before)
    (sending : before.dispatch = .sending frame remaining) (listed : socket ∈ remaining) :
    Seam firstSeq { before.deliver frame socket with
      dispatch := .sending frame (remaining.filter (· ≠ socket)) } := by
  -- Nothing but the dispatcher's list changes what is on its way.
  let sent : LiveStream :=
    { before with dispatch := .sending frame (remaining.filter (· ≠ socket)) }
  have next : sent.dispatch = .sending frame (remaining.filter (· ≠ socket)) := rfl
  have others : ∀ session other, other ≠ socket →
      sent.onWay session other = before.onWay session other := by
    intro session other apart
    rw [onWay_sending sent session other next, onWay_sending before session other sending]
    simp only [mem_remaining apart]
    rfl
  have own : ∀ session, before.onWay session socket =
      (frame.eventOf session).toList ++ sent.onWay session socket := by
    intro session
    rw [onWay_sending sent session socket next, onWay_sending before session socket sending,
      if_pos listed, if_neg not_mem_remaining]
    rfl
  by_cases gone : before.handlers socket = .gone
  · have passed : before.deliver frame socket = before := if_pos gone
    rw [passed]
    have relayed : Flow firstSeq before.nextSeq sent.onWay before.handlers before.watches := by
      refine seam.flow.relay ?_ ?_
      · intro session other number member
        by_cases same : other = socket
        · rw [same] at member ⊢
          rw [own session]
          exact List.mem_append_right _ member
        · rw [← others session other same]
          exact member
      · intro session other attentive
        apply others
        rintro rfl
        rcases attentive with ⟨seq, reads⟩ | ⟨watch, member, _, current⟩
        · rw [gone] at reads
          cases reads
        · exact (seam.registered.watching other watch member current).2 gone
    exact ⟨seam.locks.keepSending sending, seam.registered, relayed⟩
  · have delivered : ∃ strays, before.deliver frame socket =
        { before.watch socket ((before.watches socket).map (Watch.receive frame)) with
          strays := strays } := by
      unfold deliver
      rw [if_neg gone]
      dsimp only
      by_cases connected : socket ∈ before.connections frame.session
      · rw [if_pos connected]
        exact ⟨before.strays, rfl⟩
      · rw [if_neg connected]
        exact ⟨_, rfl⟩
    obtain ⟨strays, delivered⟩ := delivered
    rw [delivered]
    refine ⟨seam.locks.keepSending sending, ?_, ?_⟩
    · refine seam.registered.watch ?_
      intro watch member current
      obtain ⟨old, present, same⟩ := List.mem_map.mp member
      rw [← same, Watch.receive_ended] at current
      rw [← same, Watch.receive_session]
      exact seam.registered.watching socket old present current
    · exact seam.flow.deliver others own fun seq => seam.not_reading sending

theorem leave_cases (session : String) (watch : Watch) :
    watch.leave session = watch ∨ watch.leave session = { watch with ended := true } := by
  unfold Watch.leave
  by_cases named : watch.session = session
  · exact Or.inr (if_pos named)
  · exact Or.inl (if_neg named)

theorem mem_filter_ne {connections : String → List Nat} {session : String} {socket other : Nat}
    (apart : other ≠ socket) (member : other ∈ connections session) :
    other ∈ (connections session).filter (· ≠ socket) := by
  simpa [apart] using member

theorem seam_detach (seam : Seam firstSeq before) (session : String)
    (idle : before.handlers socket = .idle) :
    Seam firstSeq ((before.disconnectFrom session socket).watch socket
      ((before.watches socket).map (Watch.leave session))) := by
  -- Only the socket's own place in the session goes.
  have kept : ∀ other named, other ∈ before.connections named →
      (other ≠ socket ∨ named ≠ session) →
      other ∈ (before.disconnectFrom session socket).connections named := by
    intro other named member apart
    change other ∈ Function.update before.connections session _ named
    by_cases same : named = session
    · rw [same] at member ⊢
      rw [Function.update_self]
      rcases apart with differs | differs
      · exact mem_filter_ne differs member
      · exact absurd same differs
    · rw [Function.update_of_ne same]
      exact member
  refine ⟨seam.locks, ⟨?_, ?_⟩, seam.flow.endWatches (leave_cases session)⟩
  · intro other named seq reads
    apply kept other named (seam.registered.reading other named seq reads)
    left
    rintro rfl
    change before.handlers other = _ at reads
    rw [idle] at reads
    cases reads
  · intro other watch member current
    change watch ∈ Function.update before.watches socket _ other at member
    by_cases own : other = socket
    · rw [own] at member ⊢
      rw [Function.update_self] at member
      obtain ⟨old, present, rfl⟩ := List.mem_map.mp member
      have stays : old.session ≠ session := by
        intro named
        rw [Watch.leave, if_pos named] at current
        cases current
      rw [Watch.leave, if_neg stays] at current ⊢
      obtain ⟨connected, here⟩ := seam.registered.watching socket old present current
      exact ⟨kept socket old.session connected (Or.inr stays), here⟩
    · rw [Function.update_of_ne own] at member
      obtain ⟨connected, here⟩ := seam.registered.watching other watch member current
      exact ⟨kept other watch.session connected (Or.inl own), here⟩

theorem seam_disconnect (seam : Seam firstSeq before) (idle : before.handlers socket = .idle) :
    Seam firstSeq (({ before with
      connections := fun session => (before.connections session).filter (· ≠ socket) }.watch
        socket ((before.watches socket).map Watch.close)).handle socket .gone) := by
  refine ⟨seam.locks.handle (by rw [idle]; rfl), ⟨?_, ?_⟩,
    (seam.flow.endWatches fun _ => Or.inr rfl).handle nofun⟩
  · intro other named seq reads
    change Function.update before.handlers socket .gone other = _ at reads
    have apart : other ≠ socket := by
      rintro rfl
      rw [Function.update_self] at reads
      cases reads
    rw [Function.update_of_ne apart] at reads
    exact mem_filter_ne apart (seam.registered.reading other named seq reads)
  · intro other watch member current
    change watch ∈ Function.update before.watches socket _ other at member
    by_cases own : other = socket
    · rw [own, Function.update_self] at member
      obtain ⟨old, present, rfl⟩ := List.mem_map.mp member
      cases current
    · rw [Function.update_of_ne own] at member
      obtain ⟨connected, here⟩ := seam.registered.watching other watch member current
      refine ⟨mem_filter_ne own connected, ?_⟩
      change Function.update before.handlers socket .gone other ≠ _
      rw [Function.update_of_ne own]
      exact here

theorem seam_baselineSent (seam : Seam firstSeq before) {socket : Nat} {session : String}
    {seq : Int} (reads : before.handlers socket = .reading session (some seq)) :
    Seam firstSeq ((before.watch socket
      (before.watches socket ++ [⟨session, seq, [], false⟩])).handle socket (.answered session)) := by
  refine ⟨seam.locks.handle (by rw [reads]; rfl), ?_, ?_⟩
  · refine (seam.registered.watch ?_).handle nofun nofun
    intro watch member current
    rcases List.mem_append.mp member with old | new
    · exact seam.registered.watching socket watch old current
    · rw [List.mem_singleton.mp new]
      refine ⟨seam.registered.reading socket session _ reads, ?_⟩
      rw [reads]
      nofun
  · have read := seam.flow.reading socket session seq reads
    refine (seam.flow.watch ?_ ?_).handle nofun
    · intro watch member current
      rcases List.mem_append.mp member with old | new
      · exact seam.flow.complete socket watch old current
      · rw [List.mem_singleton.mp new]
        exact read
    · intro watch member
      rcases List.mem_append.mp member with old | new
      · exact seam.flow.inOrder socket watch old
      · rw [List.mem_singleton.mp new]
        exact List.nil_prefix

theorem seam_step {action : StreamAction} (seam : Seam firstSeq before)
    (stepped : (system firstSeq).step before action = some after) : Seam firstSeq after := by
  cases action with
  | append session =>
      cases stepped
      refine ⟨seam.locks, seam.registered, ?_⟩
      have grown := seam.flow.append session
      have same : (before.appendEvent session).onWay = fun named socket =>
          before.onWay named socket ++ if session = named then [before.nextSeq session] else [] := by
        funext named socket
        exact onWay_appendEvent before session named socket
      rw [same]
      exact grown
  | forward =>
      cases queue : before.forwardQueue with
      | nil =>
          simp only [system, step, queue] at stepped
          cases stepped
      | cons frame rest =>
          simp only [system, step, queue] at stepped
          cases stepped
          have same : ({ before with
              forwardQueue := rest, outbound := before.outbound ++ [frame] } :
                LiveStream).onWay = before.onWay := by
            funext session socket
            unfold onWay
            rw [queue]
            simp
          exact ⟨seam.locks, seam.registered, same ▸ seam.flow⟩
  | publish session =>
      cases stepped
      have same : ({ before with outbound := before.outbound ++ [⟨session, none⟩] } :
          LiveStream).onWay = before.onWay := by
        funext named socket
        unfold onWay
        simp [Frame.eventOf]
      exact ⟨seam.locks, seam.registered, same ▸ seam.flow⟩
  | take =>
      simp only [system, step] at stepped
      split at stepped
      · rename_i frame rest still queue
        cases stepped
        have same : ({ before with dispatch := .waiting frame, outbound := rest } :
            LiveStream).onWay = before.onWay := by
          funext session socket
          unfold onWay
          rw [still, queue]
          simp [Dispatch.toward]
        exact ⟨seam.locks.notSending (by rintro _ _ ⟨⟩), seam.registered, same ▸ seam.flow⟩
      · cases stepped
  | lockTaken =>
      simp only [system, step] at stepped
      split at stepped
      · rename_i frame waiting
        obtain ⟨free, moved⟩ := Option.ite_none_right_eq_some.mp stepped
        cases moved
        exact seam_lockTaken seam waiting free
      · cases stepped
  | sendTo socket =>
      simp only [system, step] at stepped
      split at stepped
      · rename_i frame remaining sending
        obtain ⟨listed, moved⟩ := Option.ite_none_right_eq_some.mp stepped
        cases moved
        exact seam_sendTo seam sending listed
      · cases stepped
  | sendDone =>
      simp only [system, step] at stepped
      split at stepped
      · rename_i frame sending
        cases stepped
        have same : ({ before.lock frame.session none with dispatch := .idle } :
            LiveStream).onWay = before.onWay := by
          funext session socket
          unfold onWay
          rw [sending]
          simp [Dispatch.toward, lock]
        exact ⟨seam.locks.stopSending sending, seam.registered, same ▸ seam.flow⟩
      · cases stepped
  | attach socket session =>
      obtain ⟨⟨idle, _⟩, moved⟩ := Option.ite_none_right_eq_some.mp stepped
      cases moved
      exact ⟨seam.locks.handle (by rw [idle]; rfl),
        seam.registered.handle (by rintro ⟨⟩) (by rintro _ _ ⟨⟩),
        seam.flow.handle (by rintro _ _ ⟨⟩)⟩
  | attachLocked socket =>
      simp only [system, step] at stepped
      split at stepped
      · rename_i session attaching
        obtain ⟨free, moved⟩ := Option.ite_none_right_eq_some.mp stepped
        cases moved
        refine ⟨seam.locks.acquire free,
          (seam.registered.connect session socket).handle (by rintro ⟨⟩) ?_,
          seam.flow.handle (by rintro _ _ ⟨⟩)⟩
        intro named seq reads
        cases reads
        rw [Function.update_self]
        exact List.mem_insert_self
      · cases stepped
  | readSeq socket =>
      simp only [system, step] at stepped
      split at stepped
      · rename_i session seq reads
        cases stepped
        refine ⟨seam.locks.handle (by rw [reads]; rfl), seam.registered.handle (by rintro ⟨⟩) ?_,
          seam.flow.read ?_⟩
        · intro named mark same
          cases same
          exact seam.registered.reading socket session seq reads
        · intro number _ below
          omega
      · cases stepped
  | readFails socket =>
      simp only [system, step] at stepped
      split at stepped
      · rename_i session reads
        obtain ⟨unborn, moved⟩ := Option.ite_none_right_eq_some.mp stepped
        cases moved
        refine ⟨seam.locks.handle (by rw [reads]; rfl), seam.registered.handle (by rintro ⟨⟩) ?_,
          seam.flow.read ?_⟩
        · intro named mark same
          cases same
          exact seam.registered.reading socket session none reads
        · intro number above below
          omega
      · cases stepped
  | baselineSent socket =>
      simp only [system, step] at stepped
      split at stepped
      · rename_i session seq reads
        cases stepped
        exact seam_baselineSent seam reads
      · cases stepped
  | attachDone socket =>
      simp only [system, step] at stepped
      split at stepped
      · rename_i session answered
        cases stepped
        exact ⟨seam.locks.release (by rw [answered]; rfl),
          seam.registered.handle (by rintro ⟨⟩) (by rintro _ _ ⟨⟩),
          seam.flow.handle (by rintro _ _ ⟨⟩)⟩
      · cases stepped
  | detach socket session =>
      obtain ⟨idle, moved⟩ := Option.ite_none_right_eq_some.mp stepped
      cases moved
      exact seam_detach seam session idle
  | prompt socket session =>
      obtain ⟨⟨idle, _⟩, moved⟩ := Option.ite_none_right_eq_some.mp stepped
      cases moved
      exact ⟨seam.locks.handle (by rw [idle]; rfl),
        (seam.registered.connect session socket).handle (by rintro ⟨⟩) (by rintro _ _ ⟨⟩),
        seam.flow.handle (by rintro _ _ ⟨⟩)⟩
  | promptAnswered socket =>
      simp only [system, step] at stepped
      split at stepped
      · rename_i prompting
        cases stepped
        exact ⟨seam.locks.handle (by rw [prompting]; rfl),
          seam.registered.handle (by rintro ⟨⟩) (by rintro _ _ ⟨⟩),
          seam.flow.handle (by rintro _ _ ⟨⟩)⟩
      · cases stepped
  | disconnect socket =>
      obtain ⟨idle, moved⟩ := Option.ite_none_right_eq_some.mp stepped
      cases moved
      exact seam_disconnect seam idle

/-! ### Frames of other sessions -/

structure Targeted (stream : LiveStream) : Prop where
  connected : ∀ frame remaining, stream.dispatch = .sending frame remaining →
    ∀ socket ∈ remaining, stream.handlers socket = .gone ∨
      socket ∈ stream.connections frame.session
  attached : ∀ socket, stream.strays socket = []

theorem Targeted.handle (targeted : Targeted before) {handler : Handler}
    (present : before.handlers socket ≠ .gone) :
    Targeted (before.handle socket handler) where
  connected := by
    intro frame remaining sending other listed
    rcases targeted.connected frame remaining sending other listed with gone | connected
    · left
      have apart : other ≠ socket := by
        rintro rfl
        exact present gone
      change Function.update before.handlers socket handler other = _
      rw [Function.update_of_ne apart]
      exact gone
    · exact Or.inr connected
  attached := targeted.attached

theorem Targeted.connect (targeted : Targeted before) (session : String) (socket : Nat) :
    Targeted (before.connect session socket) where
  connected := by
    intro frame remaining sending other listed
    rcases targeted.connected frame remaining sending other listed with gone | connected
    · exact Or.inl gone
    · exact Or.inr (Registered.mem_connect connected)
  attached := targeted.attached

theorem Targeted.notSending (targeted : Targeted before) {next : LiveStream}
    (quiet : ∀ frame remaining, next.dispatch ≠ .sending frame remaining)
    (strays : next.strays = before.strays) : Targeted next where
  connected := fun frame remaining sending => absurd sending (quiet frame remaining)
  attached := by
    rw [strays]
    exact targeted.attached

theorem targeted_sendTo (targeted : Targeted before)
    (sending : before.dispatch = .sending frame remaining) (listed : socket ∈ remaining) :
    Targeted { before.deliver frame socket with
      dispatch := .sending frame (remaining.filter (· ≠ socket)) } := by
  have delivered : ∃ watches, before.deliver frame socket = { before with watches := watches } := by
    unfold deliver
    by_cases gone : before.handlers socket = .gone
    · rw [if_pos gone]
      exact ⟨before.watches, rfl⟩
    · rcases targeted.connected frame remaining sending socket listed with left | connected
      · exact absurd left gone
      · rw [if_neg gone]
        dsimp only
        rw [if_pos connected]
        exact ⟨_, rfl⟩
  obtain ⟨watches, delivered⟩ := delivered
  rw [delivered]
  refine ⟨?_, targeted.attached⟩
  intro other rest same target waiting
  cases same
  exact targeted.connected frame remaining sending target (List.mem_of_mem_filter waiting)

theorem targeted_detach (targeted : Targeted before) {session : String}
    (allowed : before.DetachesBetweenFrames (.detach socket session)) :
    Targeted ((before.disconnectFrom session socket).watch socket
      ((before.watches socket).map (Watch.leave session))) where
  connected := by
    intro frame remaining sending other listed
    rcases targeted.connected frame remaining sending other listed with gone | connected
    · exact Or.inl gone
    · right
      change other ∈ Function.update before.connections session _ frame.session
      by_cases named : frame.session = session
      · have apart : other ≠ socket := by
          rintro rfl
          exact allowed frame remaining sending named listed
        rw [named] at connected ⊢
        rw [Function.update_self]
        exact mem_filter_ne apart connected
      · rw [Function.update_of_ne named]
        exact connected
  attached := targeted.attached

theorem targeted_disconnect (targeted : Targeted before) :
    Targeted (({ before with
      connections := fun session => (before.connections session).filter (· ≠ socket) }.watch
        socket ((before.watches socket).map Watch.close)).handle socket .gone) where
  connected := by
    intro frame remaining sending other listed
    change Function.update before.handlers socket .gone other = _ ∨
      other ∈ (before.connections frame.session).filter (· ≠ socket)
    by_cases own : other = socket
    · rw [own, Function.update_self]
      exact Or.inl rfl
    · rw [Function.update_of_ne own]
      rcases targeted.connected frame remaining sending other listed with gone | connected
      · exact Or.inl gone
      · exact Or.inr (mem_filter_ne own connected)
  attached := targeted.attached

theorem targeted_step {action : StreamAction} (targeted : Targeted before)
    (allowed : before.DetachesBetweenFrames action)
    (stepped : (system firstSeq).step before action = some after) : Targeted after := by
  cases action with
  | append session =>
      cases stepped
      exact ⟨targeted.connected, targeted.attached⟩
  | forward =>
      simp only [system, step] at stepped
      split at stepped
      · cases stepped
        exact ⟨targeted.connected, targeted.attached⟩
      · cases stepped
  | publish session =>
      cases stepped
      exact ⟨targeted.connected, targeted.attached⟩
  | take =>
      simp only [system, step] at stepped
      split at stepped
      · cases stepped
        exact targeted.notSending nofun rfl
      · cases stepped
  | lockTaken =>
      simp only [system, step] at stepped
      split at stepped
      · obtain ⟨_, moved⟩ := Option.ite_none_right_eq_some.mp stepped
        cases moved
        refine ⟨?_, targeted.attached⟩
        intro frame remaining sending socket listed
        cases sending
        exact Or.inr listed
      · cases stepped
  | sendTo socket =>
      simp only [system, step] at stepped
      split at stepped
      · rename_i frame remaining sending
        obtain ⟨listed, moved⟩ := Option.ite_none_right_eq_some.mp stepped
        cases moved
        exact targeted_sendTo targeted sending listed
      · cases stepped
  | sendDone =>
      simp only [system, step] at stepped
      split at stepped
      · cases stepped
        exact targeted.notSending nofun rfl
      · cases stepped
  | attach socket session =>
      obtain ⟨⟨idle, _⟩, moved⟩ := Option.ite_none_right_eq_some.mp stepped
      cases moved
      exact targeted.handle (by rw [idle]; nofun)
  | attachLocked socket =>
      simp only [system, step] at stepped
      split at stepped
      · rename_i session attaching
        obtain ⟨_, moved⟩ := Option.ite_none_right_eq_some.mp stepped
        cases moved
        have locked : Targeted (before.lock session (some (.socket socket))) :=
          ⟨targeted.connected, targeted.attached⟩
        refine (locked.connect session socket).handle ?_
        change before.handlers socket ≠ _
        rw [attaching]
        nofun
      · cases stepped
  | readSeq socket =>
      simp only [system, step] at stepped
      split at stepped
      · rename_i session seq reads
        cases stepped
        exact targeted.handle (by rw [reads]; nofun)
      · cases stepped
  | readFails socket =>
      simp only [system, step] at stepped
      split at stepped
      · rename_i session reads
        obtain ⟨_, moved⟩ := Option.ite_none_right_eq_some.mp stepped
        cases moved
        exact targeted.handle (by rw [reads]; nofun)
      · cases stepped
  | baselineSent socket =>
      simp only [system, step] at stepped
      split at stepped
      · rename_i session seq reads
        cases stepped
        have watched : Targeted (before.watch socket
            (before.watches socket ++ [⟨session, seq, [], false⟩])) :=
          ⟨targeted.connected, targeted.attached⟩
        refine watched.handle ?_
        change before.handlers socket ≠ _
        rw [reads]
        nofun
      · cases stepped
  | attachDone socket =>
      simp only [system, step] at stepped
      split at stepped
      · rename_i session answered
        cases stepped
        have unlocked : Targeted (before.lock session none) :=
          ⟨targeted.connected, targeted.attached⟩
        refine unlocked.handle ?_
        change before.handlers socket ≠ _
        rw [answered]
        nofun
      · cases stepped
  | detach socket session =>
      obtain ⟨_, moved⟩ := Option.ite_none_right_eq_some.mp stepped
      cases moved
      exact targeted_detach targeted allowed
  | prompt socket session =>
      obtain ⟨⟨idle, _⟩, moved⟩ := Option.ite_none_right_eq_some.mp stepped
      cases moved
      refine (targeted.connect session socket).handle ?_
      change before.handlers socket ≠ _
      rw [idle]
      nofun
  | promptAnswered socket =>
      simp only [system, step] at stepped
      split at stepped
      · rename_i prompting
        cases stepped
        exact targeted.handle (by rw [prompting]; nofun)
      · cases stepped
  | disconnect socket =>
      obtain ⟨_, moved⟩ := Option.ite_none_right_eq_some.mp stepped
      cases moved
      exact targeted_disconnect targeted

theorem seam_of_run {stream : LiveStream}
    (reached : (system firstSeq).Reaches StepSystem.anyStep (start firstSeq) stream) :
    Seam firstSeq stream :=
  reached.invariant (seam_start firstSeq) fun _ _ _ seam _ stepped => seam_step seam stepped

/-- Where sockets detach between frames, the live stream goes on from every baseline, and only
to the sockets that are attached. -/
theorem live_stream_law {stream : LiveStream}
    (reached : (system firstSeq).Reaches DetachesBetweenFrames (start firstSeq) stream) :
    StreamLaw firstSeq stream := by
  have seam := seam_of_run (reached.weaken fun _ _ _ => trivial)
  have targeted : Targeted stream :=
    reached.invariant ⟨nofun, fun _ => rfl⟩
      fun _ _ _ targeted allowed stepped => targeted_step targeted allowed stepped
  exact ⟨seam.flow.inOrder, seam.flow.complete, targeted.attached⟩

private def dispatchTo (socket : Nat) : List StreamAction :=
  [.take, .lockTaken, .sendTo socket, .sendDone]

private def attachBetween : List StreamAction :=
  [.append "s1", .forward, .attach 1 "s1", .attachLocked 1, .readSeq 1, .baselineSent 1,
    .append "s1", .attachDone 1] ++ dispatchTo 1 ++ [.forward] ++ dispatchTo 1

/-- An event is on its way when the socket attaches, and another one is appended behind the
baseline. -/
theorem attach_between_events :
    ∃ stream, (system fun _ => 0).run (start fun _ => 0) attachBetween = some stream ∧
      stream.watches 1 = [⟨"s1", 0, [0, 1], false⟩] ∧ StreamLaw (fun _ => 0) stream := by
  have ran : ∃ stream, (system fun _ => 0).run (start fun _ => 0) attachBetween = some stream ∧
      stream.watches 1 = [⟨"s1", 0, [0, 1], false⟩] := ⟨_, rfl, rfl⟩
  obtain ⟨stream, ran, watches⟩ := ran
  have between : ∀ action ∈ attachBetween, ∀ stream : LiveStream,
      stream.DetachesBetweenFrames action := by
    intro action member stream
    cases action with
    | detach socket session => simp [attachBetween, dispatchTo] at member
    | _ => trivial
  exact ⟨stream, ran, watches, live_stream_law (StepSystem.reaches_of_run_each between ran)⟩

/-- The second socket detaches while the frame is sent to the first one. -/
theorem detached_socket_gets_frame :
    ∃ stream, (system fun _ => 0).run (start fun _ => 0)
        [.prompt 1 "s1", .promptAnswered 1, .prompt 2 "s1", .promptAnswered 2, .append "s1",
          .forward, .take, .lockTaken, .sendTo 1, .detach 2 "s1", .sendTo 2] = some stream ∧
      stream.strays 2 = [⟨"s1", some 0⟩] ∧ ¬ StreamLaw (fun _ => 0) stream := by
  refine ⟨_, rfl, rfl, fun law => ?_⟩
  have none := law.attached 2
  cases none

end LiveStream

end Ftre.Messaging
