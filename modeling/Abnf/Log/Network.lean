import Abnf.Log.Ring
import Abnf.Path

/-! Loggers that hand records on to rings, to other loggers and to outlets. A logger in between lets
an entry through by its own level and makes a record of its own of it. While a logger hands on it
is closed to others, so an entry that gets back to a logger on its way never comes back. -/

namespace Abnf.Log

structure LoggerId where
  index : Nat
deriving DecidableEq, Repr

structure RingId where
  index : Nat
deriving DecidableEq, Repr

/-- Where records leave the loggers. A receiver of the caller's own takes them as they are and leaves
the loggers alone. -/
inductive Outlet where
  | standardError
  | file (path : Path)
  | receiver (number : Nat)
deriving DecidableEq, Repr

inductive Sink where
  | ring (id : RingId)
  | logger (id : LoggerId)
  | outlet (outlet : Outlet)
deriving DecidableEq, Repr

/-- The open spans stand innermost first. -/
structure Logger where
  level : Level
  sinks : Array Sink := #[]
  spans : List Nat := []
  nextSpan : Nat := 1

/-- What a logger makes of an entry. -/
def Logger.record (l : Logger) (time : Nat) (entry : Entry) : Record :=
  { entry with time, span := l.spans.head? }

/-- A record on its way out. -/
structure Line where
  outlet : Outlet
  record : Record
deriving DecidableEq, Repr

/-- What the clock says while one entry is handed on, whenever a logger reads it. A logger is told by
the numbers of the sinks that lead to it from the first one. -/
abbrev Readings := List Nat → Nat

/-- The clock at the loggers behind a sink. -/
def Readings.behind (clock : Readings) (i : Nat) : Readings := fun path => clock (i :: path)

/-- An open span. -/
structure Span where
  logger : LoggerId
  id : Nat
  name : String
deriving DecidableEq, Repr

structure Network where
  loggers : Array Logger
  rings : Array Ring

namespace Network

def empty : Network := ⟨#[], #[]⟩

def addLogger (net : Network) (level : Level) : Network × LoggerId :=
  ({ net with loggers := net.loggers.push { level } }, ⟨net.loggers.size⟩)

def addRing (net : Network) (capacity : Nat) : Network × RingId :=
  ({ net with rings := net.rings.push (.new capacity) }, ⟨net.rings.size⟩)

def logger? (net : Network) (id : LoggerId) : Option Logger := net.loggers[id.index]?

def ring? (net : Network) (id : RingId) : Option Ring := net.rings[id.index]?

def modifyLogger (net : Network) (id : LoggerId) (f : Logger → Logger) : Network :=
  { net with loggers := net.loggers.modify id.index f }

def modifyRing (net : Network) (id : RingId) (f : Ring → Ring) : Network :=
  { net with rings := net.rings.modify id.index f }

def attach (net : Network) (id : LoggerId) (sink : Sink) : Network :=
  net.modifyLogger id fun l => { l with sinks := l.sinks.push sink }

def setLevel (net : Network) (id : LoggerId) (level : Level) : Network :=
  net.modifyLogger id fun l => { l with level }

def isEnabled (net : Network) (id : LoggerId) (level : Level) : Bool :=
  (net.logger? id).any (·.level.admits level)

/-- How many spans are open on a logger. -/
def depth (net : Network) (id : LoggerId) : Nat :=
  ((net.logger? id).map (·.spans.length)).getD 0

/-- Opens a span inside the ones that are open. -/
def enter (net : Network) (id : LoggerId) (name : String) : Network × Span :=
  let next := ((net.logger? id).map (·.nextSpan)).getD 0
  (net.modifyLogger id fun l => { l with spans := l.nextSpan :: l.spans, nextSpan := l.nextSpan + 1 },
    ⟨id, next, name⟩)

/-- Leaving a span closes the innermost span of its logger, whichever that is. -/
def leave (net : Network) (span : Span) : Network :=
  net.modifyLogger span.logger fun l => { l with spans := l.spans.tail }

end Network

/-- Where a record arrives that is handed to a sink, of the number `i`. What is behind another logger
is as `beyond` says. -/
def Record.out (record : Record) (clock : Readings)
    (beyond : Readings → LoggerId → Option (List (Sink × Record))) :
    Sink × Nat → Option (List (Sink × Record))
  | (.logger inner, i) => beyond (clock.behind i) inner
  | (sink, _) => some [(sink, record)]

/-- Where a record arrives that a logger hands to each of its sinks in turn. -/
def Logger.outs (l : Logger) (record : Record) (clock : Readings)
    (beyond : Readings → LoggerId → Option (List (Sink × Record))) : Option (List (Sink × Record)) :=
  List.flatten <$> l.sinks.toList.zipIdx.mapM (record.out clock beyond)

namespace Network

/-- Where an entry arrives, in order, each time as a record of the last logger it passed. There are
no routes if the entry would pass more than `hops` loggers on one of them. -/
def routes (net : Network) (entry : Entry) : Nat → Readings → LoggerId → Option (List (Sink × Record))
  | 0, _, id => if net.isEnabled id entry.level then none else some []
  | hops + 1, clock, id =>
    match net.logger? id with
    | none => some []
    | some l =>
      if l.level.admits entry.level then
        l.outs (l.record (clock []) entry) clock (net.routes entry hops)
      else some []

/-- Hands a record over at the end of its route. -/
def deliver (net : Network) (sink : Sink) (record : Record) : Network × List Line :=
  match sink with
  | .ring id => (net.modifyRing id (·.push record), [])
  | .outlet outlet => (net, [⟨outlet, record⟩])
  | .logger _ => (net, [])

/-- Hands records over one after the other. The lines are those that leave, behind earlier ones. -/
def deliverAll (outs : List (Sink × Record)) (start : Network × List Line) : Network × List Line :=
  outs.foldl (fun (net, lines) (sink, record) =>
    let (net, more) := net.deliver sink record
    (net, lines ++ more)) start

/-- Logs an entry. What would pass more loggers than there are runs in a circle of loggers and never
comes back. -/
def log (net : Network) (clock : Readings) (id : LoggerId) (entry : Entry) :
    Option (Network × List Line) :=
  (net.routes entry net.loggers.size clock id).map (deliverAll · (net, []))

/-- What an entry leaves behind when it is logged. One that never comes back counts as not logged. -/
def logged (net : Network) (clock : Readings) (id : LoggerId) (entry : Entry) : Network × List Line :=
  (net.log clock id entry).getD (net, [])

/-- How many entries were let through once one more is logged, where `k` were before. -/
def through (net : Network) (id : LoggerId) (entry : Entry) (k : Nat) : Nat :=
  if net.isEnabled id entry.level then k + 1 else k

/-- Logs entries one after the other. Those that are let through have a clock each; `k` were let
through before. -/
def logAll (net : Network) (clock : Nat → Readings) (id : LoggerId) (k : Nat) :
    List Entry → Option (Network × List Line)
  | [] => some (net, [])
  | entry :: entries => do
    let (after, lines) ← net.log (clock k) id entry
    let (last, more) ← after.logAll clock id (net.through id entry k) entries
    return (last, lines ++ more)

end Network

end Abnf.Log
