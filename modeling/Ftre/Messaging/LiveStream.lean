import Ftre.Lib.StepSystem
import Mathlib.Logic.Function.Basic

/-!
The way of a session's events to the sockets: the log, the forwarder, the outbound queue, the
dispatcher and a socket's connection.
-/

namespace Ftre.Messaging

open Lib

/-- A frame of a session; queue, projection and maintenance frames have no number. -/
structure Frame where
  session : String
  seq : Option Nat
deriving DecidableEq, Repr

inductive Holder where
  | dispatcher
  | socket (id : Nat)
deriving DecidableEq, Repr

/-- `_dispatch_loop`, inside `send`. -/
inductive Dispatch where
  | idle
  | waiting (frame : Frame)
  | sending (frame : Frame) (remaining : List Nat)
deriving DecidableEq, Repr

/-- What the endpoint of a socket is at; it handles one message after another. -/
inductive Handler where
  | idle
  | attaching (session : String)
  /-- The socket is registered and the baseline is read; `seq` is what it says so far. -/
  | reading (session : String) (seq : Option Int)
  | answered (session : String)
  | prompting
  | gone
deriving DecidableEq, Repr

/-- What a socket was sent since a baseline, until it detaches. -/
structure Watch where
  session : String
  seq : Int
  got : List Nat
  ended : Bool
deriving DecidableEq, Repr

structure LiveStream where
  nextSeq : String → Nat
  forwardQueue : List Frame
  outbound : List Frame
  dispatch : Dispatch
  outputLock : String → Option Holder
  connections : String → List Nat
  handlers : Nat → Handler
  watches : Nat → List Watch
  strays : Nat → List Frame

inductive StreamAction where
  | append (session : String)
  | forward
  | publish (session : String)
  | take
  | lockTaken
  | sendTo (socket : Nat)
  | sendDone
  | attach (socket : Nat) (session : String)
  | attachLocked (socket : Nat)
  | readSeq (socket : Nat)
  | readFails (socket : Nat)
  | baselineSent (socket : Nat)
  | attachDone (socket : Nat)
  | detach (socket : Nat) (session : String)
  | prompt (socket : Nat) (session : String)
  | promptAnswered (socket : Nat)
  | disconnect (socket : Nat)
deriving DecidableEq, Repr

def Watch.receive (frame : Frame) (watch : Watch) : Watch :=
  if watch.ended = false ∧ watch.session = frame.session then
    { watch with got := watch.got ++ frame.seq.toList }
  else watch

def Watch.leave (session : String) (watch : Watch) : Watch :=
  if watch.session = session then { watch with ended := true } else watch

def Watch.close (watch : Watch) : Watch := { watch with ended := true }

namespace LiveStream

/-- No event was appended in this process yet; the log goes on from what is stored. -/
def start (firstSeq : String → Nat) : LiveStream where
  nextSeq := firstSeq
  forwardQueue := []
  outbound := []
  dispatch := .idle
  outputLock _ := none
  connections _ := []
  handlers _ := .idle
  watches _ := []
  strays _ := []

def handle (stream : LiveStream) (socket : Nat) (handler : Handler) : LiveStream :=
  { stream with handlers := Function.update stream.handlers socket handler }

def lock (stream : LiveStream) (session : String) (holder : Option Holder) : LiveStream :=
  { stream with outputLock := Function.update stream.outputLock session holder }

def watch (stream : LiveStream) (socket : Nat) (watches : List Watch) : LiveStream :=
  { stream with watches := Function.update stream.watches socket watches }

/-- `_attach`. -/
def connect (stream : LiveStream) (session : String) (socket : Nat) : LiveStream :=
  { stream with
    connections := Function.update stream.connections session
      ((stream.connections session).insert socket) }

/-- `_detach`. -/
def disconnectFrom (stream : LiveStream) (session : String) (socket : Nat) : LiveStream :=
  { stream with
    connections := Function.update stream.connections session
      ((stream.connections session).filter (· ≠ socket)) }

def appendEvent (stream : LiveStream) (session : String) : LiveStream :=
  { stream with
    nextSeq := Function.update stream.nextSeq session (stream.nextSeq session + 1)
    forwardQueue := stream.forwardQueue ++ [⟨session, some (stream.nextSeq session)⟩] }

/-- `_send_to_targets` reaches a socket; a socket that is gone is passed over. -/
def deliver (stream : LiveStream) (frame : Frame) (socket : Nat) : LiveStream :=
  if stream.handlers socket = .gone then stream
  else
    let received := stream.watch socket ((stream.watches socket).map (Watch.receive frame))
    if socket ∈ stream.connections frame.session then received
    else { received with
      strays := Function.update stream.strays socket (stream.strays socket ++ [frame]) }

def step (firstSeq : String → Nat) (stream : LiveStream) : StreamAction → Option LiveStream
  | .append session => some (stream.appendEvent session)
  | .forward =>
      match stream.forwardQueue with
      | frame :: rest =>
          some { stream with forwardQueue := rest, outbound := stream.outbound ++ [frame] }
      | [] => none
  | .publish session => some { stream with outbound := stream.outbound ++ [⟨session, none⟩] }
  | .take =>
      match stream.dispatch, stream.outbound with
      | .idle, frame :: rest => some { stream with dispatch := .waiting frame, outbound := rest }
      | _, _ => none
  | .lockTaken =>
      match stream.dispatch with
      | .waiting frame =>
          if stream.outputLock frame.session = none then
            some { stream.lock frame.session (some .dispatcher) with
              dispatch := .sending frame (stream.connections frame.session) }
          else none
      | _ => none
  | .sendTo socket =>
      match stream.dispatch with
      | .sending frame remaining =>
          if socket ∈ remaining then
            some { stream.deliver frame socket with
              dispatch := .sending frame (remaining.filter (· ≠ socket)) }
          else none
      | _ => none
  | .sendDone =>
      match stream.dispatch with
      | .sending frame [] => some { stream.lock frame.session none with dispatch := .idle }
      | _ => none
  | .attach socket session =>
      if stream.handlers socket = .idle ∧ session ≠ "" then
        some (stream.handle socket (.attaching session))
      else none
  | .attachLocked socket =>
      match stream.handlers socket with
      | .attaching session =>
          if stream.outputLock session = none then
            some (((stream.lock session (some (.socket socket))).connect session socket).handle
              socket (.reading session none))
          else none
      | _ => none
  | .readSeq socket =>
      match stream.handlers socket with
      | .reading session _ =>
          some (stream.handle socket (.reading session (some ((stream.nextSeq session : Int) - 1))))
      | _ => none
  -- The log of a session can be missing only before its first event.
  | .readFails socket =>
      match stream.handlers socket with
      | .reading session none =>
          if stream.nextSeq session = firstSeq session then
            some (stream.handle socket (.reading session (some (-1))))
          else none
      | _ => none
  | .baselineSent socket =>
      match stream.handlers socket with
      | .reading session (some seq) =>
          some ((stream.watch socket (stream.watches socket ++ [⟨session, seq, [], false⟩])).handle
            socket (.answered session))
      | _ => none
  | .attachDone socket =>
      match stream.handlers socket with
      | .answered session => some ((stream.lock session none).handle socket .idle)
      | _ => none
  | .detach socket session =>
      if stream.handlers socket = .idle then
        some ((stream.disconnectFrom session socket).watch socket
          ((stream.watches socket).map (Watch.leave session)))
      else none
  | .prompt socket session =>
      if stream.handlers socket = .idle ∧ session ≠ "" then
        some ((stream.connect session socket).handle socket .prompting)
      else none
  | .promptAnswered socket =>
      match stream.handlers socket with
      | .prompting => some (stream.handle socket .idle)
      | _ => none
  | .disconnect socket =>
      if stream.handlers socket = .idle then
        some (({ stream with
          connections := fun session => (stream.connections session).filter (· ≠ socket) }.watch
            socket ((stream.watches socket).map Watch.close)).handle socket .gone)
      else none

/-- `firstSeq` is where the log of each session goes on when the process starts. -/
def system (firstSeq : String → Nat) : StepSystem LiveStream StreamAction :=
  ⟨step firstSeq⟩

end LiveStream

end Ftre.Messaging
