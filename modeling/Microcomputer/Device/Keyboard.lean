/-!
Keyboards. A keyboard is polled once before each instruction and yields at most one key. It is known by what
its polls yield, one after the other: keys may come at any of them. A script yields its keys in order, one in
every so many polls; the polls are counted only while keys are left.
-/

namespace Microcomputer

structure KeyScript where
  keys : List UInt8
  /-- Polls from one key to the next, at least one. -/
  interval : Nat
  /-- Polls left to the next key. -/
  countdown : Nat
  deriving DecidableEq, Repr

inductive Keyboard
  | scripted (script : KeyScript)
  /-- What each poll yields, and how many there have been. -/
  | arriving (yields : Nat → Option UInt8) (polls : Nat)

namespace KeyScript

def ofKeys (keys : List UInt8) (interval : Nat) : KeyScript := ⟨keys, max interval 1, max interval 1⟩

def poll (s : KeyScript) : Option UInt8 × KeyScript :=
  match s.keys with
  | [] => (none, s)
  | key :: rest =>
    if 1 < s.countdown then (none, { s with countdown := s.countdown - 1 })
    else (some key, { s with keys := rest, countdown := s.interval })

end KeyScript

namespace Keyboard

/-- A keyboard nobody types on. -/
def absent : Keyboard := .arriving (fun _ => none) 0

/-- Keys that were typed and wait to be read. -/
def typed (waiting : List UInt8) : Keyboard := .arriving (fun n => waiting[n]?) 0

def poll : Keyboard → Option UInt8 × Keyboard
  | scripted script => (script.poll.1, scripted script.poll.2)
  | arriving yields polls => (yields polls, arriving yields (polls + 1))

end Keyboard

end Microcomputer
