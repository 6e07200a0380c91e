import Ftre.Messaging.LiveStream
import Mathlib.Data.List.Range

/-!
The seam between a baseline and the live stream: what a socket was sent after a baseline and what
is still on its way to it are together the events behind the baseline.
-/

namespace Ftre.Messaging

open Lib

def behind (seq : Int) (seqs : List Nat) : List Nat := seqs.filter fun number => decide (seq < number)

def eventsBehind (firstSeq nextSeq : Nat) (seq : Int) : List Nat :=
  behind seq (List.range' firstSeq (nextSeq - firstSeq))

def Frame.eventOf (session : String) (frame : Frame) : Option Nat :=
  if frame.session = session then frame.seq else none

def Dispatch.toward (socket : Nat) : Dispatch → List Frame
  | .idle => []
  | .waiting frame => [frame]
  | .sending frame remaining => if socket ∈ remaining then [frame] else []

namespace LiveStream

def onWay (stream : LiveStream) (session : String) (socket : Nat) : List Nat :=
  (stream.dispatch.toward socket ++ stream.outbound ++ stream.forwardQueue).filterMap
    (Frame.eventOf session)

/-- A socket gets the events behind its baseline in order and without a gap, none of them is
lost, and it gets no frame of a session it is not attached to. -/
structure StreamLaw (firstSeq : String → Nat) (stream : LiveStream) : Prop where
  inOrder : ∀ socket, ∀ watch ∈ stream.watches socket, behind watch.seq watch.got <+:
    eventsBehind (firstSeq watch.session) (stream.nextSeq watch.session) watch.seq
  complete : ∀ socket, ∀ watch ∈ stream.watches socket, watch.ended = false →
    behind watch.seq (watch.got ++ stream.onWay watch.session socket) =
      eventsBehind (firstSeq watch.session) (stream.nextSeq watch.session) watch.seq
  attached : ∀ socket, stream.strays socket = []

/-- No socket detaches from a session whose frame is being sent before it is reached. -/
def DetachesBetweenFrames (stream : LiveStream) : StreamAction → Prop
  | .detach socket session => ∀ frame remaining, stream.dispatch = .sending frame remaining →
      frame.session = session → socket ∉ remaining
  | _ => True

end LiveStream

/-! ### Locks -/

def Handler.holds : Handler → Option String
  | .reading session _ => some session
  | .answered session => some session
  | _ => none

structure Locks (outputLock : String → Option Holder) (handlers : Nat → Handler)
    (dispatch : Dispatch) : Prop where
  locked : ∀ socket session, (handlers socket).holds = some session →
    outputLock session = some (.socket socket)
  sending : ∀ frame remaining, dispatch = .sending frame remaining →
    outputLock frame.session = some .dispatcher

namespace Locks

variable {outputLock : String → Option Holder} {handlers : Nat → Handler} {dispatch : Dispatch}

variable {socket : Nat} {frame : Frame}

theorem handle (locks : Locks outputLock handlers dispatch) {handler : Handler}
    (same : handler.holds = (handlers socket).holds) :
    Locks outputLock (Function.update handlers socket handler) dispatch where
  locked := by
    intro other session holds
    by_cases own : other = socket
    · rw [own] at holds ⊢
      rw [Function.update_self, same] at holds
      exact locks.locked socket session holds
    · rw [Function.update_of_ne own] at holds
      exact locks.locked other session holds
  sending := locks.sending

theorem acquire (locks : Locks outputLock handlers dispatch) {session : String} {seq : Option Int}
    (free : outputLock session = none) :
    Locks (Function.update outputLock session (some (.socket socket)))
      (Function.update handlers socket (.reading session seq)) dispatch where
  locked := by
    intro other named holds
    by_cases own : other = socket
    · rw [own] at holds ⊢
      rw [Function.update_self] at holds
      cases holds
      rw [Function.update_self]
    · rw [Function.update_of_ne own] at holds
      have held := locks.locked other named holds
      have apart : named ≠ session := by
        rintro rfl
        rw [free] at held
        cases held
      rw [Function.update_of_ne apart]
      exact held
  sending := by
    intro frame remaining sending
    have held := locks.sending frame remaining sending
    have apart : frame.session ≠ session := by
      rintro same
      rw [same, free] at held
      cases held
    rw [Function.update_of_ne apart]
    exact held

theorem release (locks : Locks outputLock handlers dispatch) {session : String}
    (held : (handlers socket).holds = some session) :
    Locks (Function.update outputLock session none) (Function.update handlers socket .idle)
      dispatch where
  locked := by
    intro other named holds
    by_cases own : other = socket
    · rw [own, Function.update_self] at holds
      cases holds
    · rw [Function.update_of_ne own] at holds
      have taken := locks.locked other named holds
      have apart : named ≠ session := by
        rintro rfl
        rw [locks.locked socket named held] at taken
        cases taken
        exact own rfl
      rw [Function.update_of_ne apart]
      exact taken
  sending := by
    intro frame remaining sending
    have taken := locks.sending frame remaining sending
    have apart : frame.session ≠ session := by
      intro same
      rw [same, locks.locked socket session held] at taken
      cases taken
    rw [Function.update_of_ne apart]
    exact taken

theorem startSending (locks : Locks outputLock handlers dispatch) {remaining : List Nat}
    (free : outputLock frame.session = none) :
    Locks (Function.update outputLock frame.session (some .dispatcher)) handlers
      (.sending frame remaining) where
  locked := by
    intro socket session holds
    have held := locks.locked socket session holds
    have apart : session ≠ frame.session := by
      rintro rfl
      rw [free] at held
      cases held
    rw [Function.update_of_ne apart]
    exact held
  sending := by
    intro other rest sending
    cases sending
    exact Function.update_self ..

theorem stopSending (locks : Locks outputLock handlers dispatch) {remaining : List Nat}
    (sending : dispatch = .sending frame remaining) :
    Locks (Function.update outputLock frame.session none) handlers .idle where
  locked := by
    intro socket session holds
    have held := locks.locked socket session holds
    have apart : session ≠ frame.session := by
      rintro rfl
      rw [locks.sending frame remaining sending] at held
      cases held
    rw [Function.update_of_ne apart]
    exact held
  sending := nofun

theorem keepSending (locks : Locks outputLock handlers dispatch) {remaining rest : List Nat}
    (sending : dispatch = .sending frame remaining) :
    Locks outputLock handlers (.sending frame rest) where
  locked := locks.locked
  sending := by
    intro other others same
    cases same
    exact locks.sending frame remaining sending

theorem notSending (locks : Locks outputLock handlers dispatch) {next : Dispatch}
    (quiet : ∀ frame remaining, next ≠ .sending frame remaining) :
    Locks outputLock handlers next where
  locked := locks.locked
  sending := fun frame remaining sending => absurd sending (quiet frame remaining)

end Locks

/-! ### Registration -/

structure Registered (connections : String → List Nat) (handlers : Nat → Handler)
    (watches : Nat → List Watch) : Prop where
  reading : ∀ socket session seq, handlers socket = .reading session seq →
    socket ∈ connections session
  watching : ∀ socket, ∀ watch ∈ watches socket, watch.ended = false →
    socket ∈ connections watch.session ∧ handlers socket ≠ .gone

namespace Registered

variable {connections : String → List Nat} {handlers : Nat → Handler} {watches : Nat → List Watch}

theorem handle (registered : Registered connections handlers watches) {socket : Nat}
    {handler : Handler} (present : handler ≠ .gone)
    (reads : ∀ session seq, handler = .reading session seq → socket ∈ connections session) :
    Registered connections (Function.update handlers socket handler) watches where
  reading := by
    intro other session seq at_
    by_cases own : other = socket
    · rw [own] at at_ ⊢
      rw [Function.update_self] at at_
      exact reads session seq at_
    · rw [Function.update_of_ne own] at at_
      exact registered.reading other session seq at_
  watching := by
    intro other watch member current
    obtain ⟨connected, here⟩ := registered.watching other watch member current
    refine ⟨connected, ?_⟩
    by_cases own : other = socket
    · rw [own, Function.update_self]
      exact present
    · rw [Function.update_of_ne own]
      exact here

theorem mem_connect {session named : String} {socket other : Nat}
    (member : other ∈ connections named) :
    other ∈ Function.update connections session ((connections session).insert socket) named := by
  by_cases same : named = session
  · rw [same] at member ⊢
    rw [Function.update_self]
    exact List.mem_insert_of_mem member
  · rw [Function.update_of_ne same]
    exact member

theorem connect (registered : Registered connections handlers watches) (session : String)
    (socket : Nat) :
    Registered
      (Function.update connections session ((connections session).insert socket)) handlers
      watches where
  reading := fun other named seq at_ => mem_connect (registered.reading other named seq at_)
  watching := fun other watch member current =>
    ⟨mem_connect (registered.watching other watch member current).1,
      (registered.watching other watch member current).2⟩

theorem watch (registered : Registered connections handlers watches) {socket : Nat}
    {changed : List Watch}
    (allowed : ∀ watch ∈ changed, watch.ended = false →
      socket ∈ connections watch.session ∧ handlers socket ≠ .gone) :
    Registered connections handlers (Function.update watches socket changed) where
  reading := registered.reading
  watching := by
    intro other watch member current
    by_cases own : other = socket
    · rw [own] at member ⊢
      rw [Function.update_self] at member
      exact allowed watch member current
    · rw [Function.update_of_ne own] at member
      exact registered.watching other watch member current

end Registered

theorem Watch.receive_session (frame : Frame) (watch : Watch) :
    (watch.receive frame).session = watch.session := by
  unfold receive
  split
  · rfl
  · rfl

theorem Watch.receive_seq (frame : Frame) (watch : Watch) :
    (watch.receive frame).seq = watch.seq := by
  unfold receive
  split
  · rfl
  · rfl

theorem Watch.receive_ended (frame : Frame) (watch : Watch) :
    (watch.receive frame).ended = watch.ended := by
  unfold receive
  split
  · rfl
  · rfl

/-! ### The flow of events -/

theorem behind_append (seq : Int) (left right : List Nat) :
    behind seq (left ++ right) = behind seq left ++ behind seq right := List.filter_append ..

theorem eventsBehind_succ {firstSeq nextSeq : Nat} (started : firstSeq ≤ nextSeq) (seq : Int) :
    eventsBehind firstSeq (nextSeq + 1) seq =
      eventsBehind firstSeq nextSeq seq ++ behind seq [nextSeq] := by
  have grown : List.range' firstSeq (nextSeq + 1 - firstSeq) =
      List.range' firstSeq (nextSeq - firstSeq) ++ [nextSeq] := by
    rw [Nat.succ_sub started, List.range'_concat]
    congr 2
    omega
  unfold eventsBehind
  rw [grown, behind_append]

theorem behind_eq_nil {seq : Int} {seqs : List Nat}
    (none : ∀ number ∈ seqs, (number : Int) ≤ seq) : behind seq seqs = [] := by
  unfold behind
  rw [List.filter_eq_nil_iff]
  intro number member above
  have below := none number member
  have above := of_decide_eq_true above
  omega

structure Flow (firstSeq nextSeq : String → Nat) (onWay : String → Nat → List Nat)
    (handlers : Nat → Handler) (watches : Nat → List Watch) : Prop where
  started : ∀ session, firstSeq session ≤ nextSeq session
  numbered : ∀ session socket, ∀ number ∈ onWay session socket,
    firstSeq session ≤ number ∧ number < nextSeq session
  reading : ∀ socket session seq, handlers socket = .reading session (some seq) →
    behind seq (onWay session socket) = eventsBehind (firstSeq session) (nextSeq session) seq
  complete : ∀ socket, ∀ watch ∈ watches socket, watch.ended = false →
    behind watch.seq (watch.got ++ onWay watch.session socket) =
      eventsBehind (firstSeq watch.session) (nextSeq watch.session) watch.seq
  inOrder : ∀ socket, ∀ watch ∈ watches socket, behind watch.seq watch.got <+:
    eventsBehind (firstSeq watch.session) (nextSeq watch.session) watch.seq

def Attentive (handlers : Nat → Handler) (watches : Nat → List Watch) (session : String)
    (socket : Nat) : Prop :=
  (∃ seq, handlers socket = .reading session seq) ∨
    ∃ watch ∈ watches socket, watch.session = session ∧ watch.ended = false

theorem Registered.of_attentive {connections : String → List Nat} {handlers : Nat → Handler}
    {watches : Nat → List Watch} (registered : Registered connections handlers watches)
    {session : String} {socket : Nat} (attentive : Attentive handlers watches session socket) :
    socket ∈ connections session := by
  rcases attentive with ⟨seq, reads⟩ | ⟨watch, member, named, current⟩
  · exact registered.reading socket session seq reads
  · rw [← named]
    exact (registered.watching socket watch member current).1

namespace Flow

variable {firstSeq nextSeq : String → Nat} {onWay : String → Nat → List Nat}
  {handlers : Nat → Handler} {watches : Nat → List Watch}

variable {next : String → Nat → List Nat} {socket : Nat}

theorem relay (flow : Flow firstSeq nextSeq onWay handlers watches)
    {next : String → Nat → List Nat}
    (fewer : ∀ session socket, next session socket ⊆ onWay session socket)
    (same : ∀ session socket, Attentive handlers watches session socket →
      next session socket = onWay session socket) :
    Flow firstSeq nextSeq next handlers watches where
  started := flow.started
  numbered := fun session socket number member =>
    flow.numbered session socket number (fewer session socket member)
  reading := by
    intro socket session seq reads
    rw [same session socket (Or.inl ⟨some seq, reads⟩)]
    exact flow.reading socket session seq reads
  complete := by
    intro socket watch member current
    rw [same watch.session socket (Or.inr ⟨watch, member, rfl, current⟩)]
    exact flow.complete socket watch member current
  inOrder := flow.inOrder

theorem append (flow : Flow firstSeq nextSeq onWay handlers watches) (session : String) :
    Flow firstSeq (Function.update nextSeq session (nextSeq session + 1))
      (fun named socket => onWay named socket ++
        if session = named then [nextSeq session] else []) handlers watches where
  started := by
    intro named
    have before := flow.started named
    by_cases same : named = session
    · rw [same] at before ⊢
      rw [Function.update_self]
      exact Nat.le_succ_of_le before
    · rw [Function.update_of_ne same]
      exact before
  numbered := by
    intro named socket number member
    by_cases same : named = session
    · rw [same] at member ⊢
      rw [Function.update_self]
      have start := flow.started session
      rcases List.mem_append.mp member with old | new
      · have bounds := flow.numbered session socket number old
        omega
      · rw [if_pos rfl] at new
        have last := List.mem_singleton.mp new
        omega
    · rw [Function.update_of_ne same]
      rw [if_neg (Ne.symm same), List.append_nil] at member
      exact flow.numbered named socket number member
  reading := by
    intro socket named seq reads
    have before := flow.reading socket named seq reads
    by_cases same : named = session
    · rw [same] at before ⊢
      rw [if_pos rfl, Function.update_self, behind_append, before,
        eventsBehind_succ (flow.started session)]
    · rw [Function.update_of_ne same, if_neg (Ne.symm same), List.append_nil]
      exact before
  complete := by
    intro socket watch member current
    have before := flow.complete socket watch member current
    by_cases same : watch.session = session
    · rw [same] at before ⊢
      rw [if_pos rfl, Function.update_self, ← List.append_assoc, behind_append, before,
        eventsBehind_succ (flow.started session)]
    · rw [Function.update_of_ne same, if_neg (Ne.symm same), List.append_nil]
      exact before
  inOrder := by
    intro socket watch member
    have before := flow.inOrder socket watch member
    by_cases same : watch.session = session
    · rw [same] at before ⊢
      rw [Function.update_self, eventsBehind_succ (flow.started session)]
      exact before.trans (List.prefix_append _ _)
    · rw [Function.update_of_ne same]
      exact before

theorem handle (flow : Flow firstSeq nextSeq onWay handlers watches) {handler : Handler}
    (unread : ∀ session seq, handler ≠ .reading session (some seq)) :
    Flow firstSeq nextSeq onWay (Function.update handlers socket handler) watches where
  started := flow.started
  numbered := flow.numbered
  reading := by
    intro other session seq reads
    by_cases own : other = socket
    · rw [own, Function.update_self] at reads
      exact absurd reads (unread session seq)
    · rw [Function.update_of_ne own] at reads
      exact flow.reading other session seq reads
  complete := flow.complete
  inOrder := flow.inOrder

theorem read (flow : Flow firstSeq nextSeq onWay handlers watches) {socket : Nat}
    {session : String} {seq : Int}
    (latest : ∀ number, firstSeq session ≤ number → number < nextSeq session →
      (number : Int) ≤ seq) :
    Flow firstSeq nextSeq onWay
      (Function.update handlers socket (.reading session (some seq))) watches where
  started := flow.started
  numbered := flow.numbered
  reading := by
    intro other named mark reads
    by_cases own : other = socket
    · rw [own, Function.update_self] at reads
      cases reads
      rw [own, behind_eq_nil, eventsBehind, behind_eq_nil]
      · intro number member
        rw [List.mem_range'_1] at member
        exact latest number member.1 (by omega)
      · intro number member
        have bounds := flow.numbered session socket number member
        exact latest number bounds.1 bounds.2
    · rw [Function.update_of_ne own] at reads
      exact flow.reading other named mark reads
  complete := flow.complete
  inOrder := flow.inOrder

theorem watch (flow : Flow firstSeq nextSeq onWay handlers watches) {socket : Nat}
    {changed : List Watch}
    (complete : ∀ watch ∈ changed, watch.ended = false →
      behind watch.seq (watch.got ++ onWay watch.session socket) =
        eventsBehind (firstSeq watch.session) (nextSeq watch.session) watch.seq)
    (inOrder : ∀ watch ∈ changed, behind watch.seq watch.got <+:
      eventsBehind (firstSeq watch.session) (nextSeq watch.session) watch.seq) :
    Flow firstSeq nextSeq onWay handlers (Function.update watches socket changed) where
  started := flow.started
  numbered := flow.numbered
  reading := flow.reading
  complete := by
    intro other watch member current
    by_cases own : other = socket
    · rw [own] at member ⊢
      rw [Function.update_self] at member
      exact complete watch member current
    · rw [Function.update_of_ne own] at member
      exact flow.complete other watch member current
  inOrder := by
    intro other watch member
    by_cases own : other = socket
    · rw [own, Function.update_self] at member
      exact inOrder watch member
    · rw [Function.update_of_ne own] at member
      exact flow.inOrder other watch member

theorem endWatches (flow : Flow firstSeq nextSeq onWay handlers watches) {ending : Watch → Watch}
    (kept : ∀ watch, ending watch = watch ∨ ending watch = { watch with ended := true }) :
    Flow firstSeq nextSeq onWay handlers
      (Function.update watches socket ((watches socket).map ending)) := by
  apply flow.watch
  · intro watch member current
    obtain ⟨old, present, same⟩ := List.mem_map.mp member
    rcases kept old with unchanged | ended
    · rw [← same, unchanged] at current ⊢
      exact flow.complete socket old present current
    · rw [← same, ended] at current
      cases current
  · intro watch member
    obtain ⟨old, present, same⟩ := List.mem_map.mp member
    rcases kept old with unchanged | ended
    · rw [← same, unchanged]
      exact flow.inOrder socket old present
    · rw [← same, ended]
      exact flow.inOrder socket old present

theorem deliver (flow : Flow firstSeq nextSeq onWay handlers watches) {frame : Frame}
    (others : ∀ session other, other ≠ socket → next session other = onWay session other)
    (own : ∀ session, onWay session socket = (frame.eventOf session).toList ++ next session socket)
    (unread : ∀ seq, handlers socket ≠ .reading frame.session (some seq)) :
    Flow firstSeq nextSeq next handlers
      (Function.update watches socket ((watches socket).map (Watch.receive frame))) := by
  have elsewhere : ∀ session, frame.session ≠ session →
      next session socket = onWay session socket := by
    intro session apart
    have nothing : frame.eventOf session = none := if_neg apart
    rw [own session, nothing]
    rfl
  -- A watch that receives the frame has the rest on its way.
  have received : ∀ watch ∈ watches socket, (watch.receive frame).ended = false →
      behind watch.seq ((watch.receive frame).got ++ next watch.session socket) =
        eventsBehind (firstSeq watch.session) (nextSeq watch.session) watch.seq := by
    intro watch member current
    rw [Watch.receive_ended] at current
    have complete := flow.complete socket watch member current
    by_cases named : watch.session = frame.session
    · have got : (watch.receive frame).got = watch.got ++ frame.seq.toList := by
        unfold Watch.receive
        rw [if_pos ⟨current, named⟩]
      have event : frame.eventOf watch.session = frame.seq := if_pos named.symm
      rw [own watch.session, event, ← List.append_assoc] at complete
      rw [got]
      exact complete
    · have got : (watch.receive frame).got = watch.got := by
        unfold Watch.receive
        rw [if_neg fun both => named both.2]
      rw [got, elsewhere watch.session (Ne.symm named)]
      exact complete
  constructor
  case started => exact flow.started
  case numbered =>
    intro session other number member
    apply flow.numbered session other
    by_cases same : other = socket
    · rw [same] at member ⊢
      rw [own session]
      exact List.mem_append_right _ member
    · rw [others session other same] at member
      exact member
  case reading =>
    intro other session seq reads
    by_cases same : other = socket
    · rw [same] at reads ⊢
      have apart : frame.session ≠ session := by
        rintro rfl
        exact unread seq reads
      rw [elsewhere session apart]
      exact flow.reading socket session seq reads
    · rw [others session other same]
      exact flow.reading other session seq reads
  case complete =>
    intro other watch member current
    by_cases same : other = socket
    · rw [same] at member ⊢
      rw [Function.update_self] at member
      obtain ⟨old, present, rfl⟩ := List.mem_map.mp member
      rw [Watch.receive_session, Watch.receive_seq]
      exact received old present current
    · rw [Function.update_of_ne same] at member
      rw [others watch.session other same]
      exact flow.complete other watch member current
  case inOrder =>
    intro other watch member
    by_cases same : other = socket
    · rw [same, Function.update_self] at member
      obtain ⟨old, present, rfl⟩ := List.mem_map.mp member
      cases ended : old.ended with
      | true =>
          have kept : old.receive frame = old := by
            unfold Watch.receive
            rw [ended]
            rfl
          rw [kept]
          exact flow.inOrder socket old present
      | false =>
          have complete := received old present (by rw [Watch.receive_ended]; exact ended)
          rw [Watch.receive_session, Watch.receive_seq, ← complete, behind_append]
          exact List.prefix_append _ _
    · rw [Function.update_of_ne same] at member
      exact flow.inOrder other watch member

end Flow

end Ftre.Messaging
