import ChipEight.Log
import ChipEight.Screen.Picture
import ChipEight.Tone

/-!
# The host

The host has a window, a keyboard and a mixer for sound. Everything that the program asks of it is
a call, and the calls are kept in order; what the host reports comes in batches of events, one
batch for every poll. A feed holds the batches that are still to come.

A host may refuse what it is asked to do, and it may have no room for the samples of a sound. When
it does is up to the platform. It never refuses to be started and to be shut down, nor to switch a
sound that it has made.
-/

namespace ChipEight.Host

inductive Event where
  | quit
  | keyDown (key : Int)
  | keyUp (key : Int)
  /-- An event that means nothing to the program. -/
  | other
  /-- Somebody asks the window to stop. -/
  | stop
  deriving DecidableEq, Repr

/-- The samples that a sound is made of: their number, their channels if there are several, and
the runs of equal samples in each channel. -/
structure Sound where
  length : Nat
  channels : Option Nat
  runs : List (Int × Nat)
  deriving DecidableEq, Repr

inductive Call where
  | init
  | setCaption (title : String)
  | setMode (width height : Int)
  | surface (width height : Int)
  | mixerInit (rate size channels : Int)
  | makeSound (sound : Sound)
  | blit (picture : Picture)
  | scale (width height : Int)
  | flip
  | play (loops : Int)
  | stop
  | clock (rate : Int)
  | quit
  deriving DecidableEq, Repr

/-- The mixer: the rate and the channels that it settles on, or why there is none. -/
inductive Mixer where
  | device (rate channels : Int)
  | absent (reason : String)
  deriving DecidableEq, Repr

/-- What was called and logged, in order. -/
structure Effects where
  calls : Array Call
  log : Array Log.Line

namespace Effects

def none : Effects := ⟨#[], #[]⟩

def call (e : Effects) (c : Call) : Effects := { e with calls := e.calls.push c }

def callAll (e : Effects) (cs : List Call) : Effects := { e with calls := e.calls ++ cs }

def note (e : Effects) (line : Log.Line) : Effects := { e with log := e.log.push line }

def noteAll (e : Effects) (lines : List Log.Line) : Effects := { e with log := e.log ++ lines }

/-- One after the other. -/
def append (e f : Effects) : Effects := ⟨e.calls ++ f.calls, e.log ++ f.log⟩

instance : Append Effects := ⟨append⟩

@[simp] theorem callAll_nil (e : Effects) : e.callAll [] = e := by
  simp [callAll]

@[simp] theorem callAll_cons (e : Effects) (c : Call) (cs : List Call) :
    e.callAll (c :: cs) = (e.call c).callAll cs := by
  simp [callAll, call]

end Effects

/-- What a host is able and willing to do. -/
structure Platform where
  mixer : Mixer
  /-- Why there is no room for so many samples. -/
  shortage? : Nat → Option String
  /-- Why a call is refused that is made behind other calls. -/
  refusal? : Array Call → Call → Option String

/-- A host with room for everything that refuses nothing. -/
def Platform.willing (mixer : Mixer) : Platform where
  mixer
  shortage? _ := none
  refusal? _ _ := none

/-- Batches of events. Once they are used up every poll gives a quit, or nothing. -/
structure Feed where
  batches : List (List Event)
  quitsAtEnd : Bool
  deriving DecidableEq, Repr

namespace Feed

/-- The next batch, and the feed after it. -/
def poll (f : Feed) : List Event × Feed :=
  match f.batches with
  | batch :: batches => (batch, { f with batches })
  | [] => (if f.quitsAtEnd then [.quit] else [], f)

end Feed

end ChipEight.Host
