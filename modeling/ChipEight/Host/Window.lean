import ChipEight.Host.Beeper
import ChipEight.Machine.Tick

/-!
# The window

A window shows the screen of a machine, feeds the host keyboard into its keypad and sounds its
tone. Every round of its loop takes one batch of events, ticks the machine once, shows the screen
if the tick signalled a redraw, switches the tone and waits for the clock. The loop ends with its
number of rounds, or when a batch asks for it; a fault ends it too, be it one of the machine or a
call that the host refuses. However it ends, the tone is switched off and the host is shut down. But
before the loop a window has to be opened, and its beeper with it, and a fault that comes up there
ends the run as it stands.

A run without a number of rounds has nothing but events to end it. It is followed as far as its feed
goes.
-/

namespace ChipEight.Host

open Numeric

/-- The host key that closes the window. -/
def escapeKey : Int := 27

structure Window where
  /-- Host pixels for each pixel of the screen. -/
  scale : Int
  /-- Ticks in a second. -/
  hz : Int
  title : String
  /-- Host keys with the keys that they stand for; the last entry of a host key counts. -/
  keymap : List (Int × Key)
  palette : Palette
  beeper : Option Beeper
  held : Keypad
  /-- How often the screen was shown. -/
  frames : Nat
  stopRequested : Bool

/-- Why a run of a window ended early. -/
inductive RunFault where
  | machine (e : Fault)
  | tone (e : ToneFault)
  | picture (e : PictureFault)
  /-- The host has refused a call. -/
  | refused (c : Call) (reason : String)
  deriving DecidableEq, Repr

namespace Window

def usualScale : Int := 16

def usualHz : Int := 300

def usualTitle : String := "CHIP-8"

/-- The keypad on the host keyboard. -/
def usualKeymap : List (Int × Key) := Keypad.layout.map fun (c, k) => ((c.toNat : Int), k)

/-- A window that has not run. Its scale and its rate are one at least. -/
def create (scale hz : Int) (title : String) (keymap : List (Int × Key)) (palette : Palette)
    (beeper : Option Beeper) : Window where
  scale := max 1 scale
  hz := max 1 hz
  title
  keymap
  palette
  beeper
  held := .released
  frames := 0
  stopRequested := false

def width (w : Window) : Int := Screen.usualWidth * w.scale

def height (w : Window) : Int := Screen.usualHeight * w.scale

/-- What is called to open a window, the host having been started. -/
def opening (w : Window) : List Call :=
  [.setCaption w.title, .setMode w.width w.height,
    .surface Screen.usualWidth Screen.usualHeight]

/-- What is called to show a picture. -/
def showing (w : Window) (p : Picture) : List Call := [.blit p, .scale w.width w.height, .flip]

/-- What is logged when a window opens. -/
def openedLine (w : Window) : Log.Line :=
  ⟨.info, .host, "Window " ++ toString w.width ++ "x" ++ toString w.height ++ " at " ++
    toString w.hz ++ " ticks/s"⟩

/-- The key that a host key stands for. -/
def keyOf (w : Window) (hostKey : Int) : Option Key :=
  (w.keymap.findRev? fun entry => entry.1 = hostKey).map (·.2)

/-- Asks for the end of the run that is going on. -/
def stop (w : Window) : Window := { w with stopRequested := true }

def press (w : Window) (hostKey : Int) (pressed : Bool) : Window :=
  match w.keyOf hostKey with
  | some k => { w with held := w.held.set k pressed }
  | none => w

def handle (w : Window) : Event → Window
  | .quit | .stop => w.stop
  | .keyDown key => if key = escapeKey then w.stop else w.press key true
  | .keyUp key => w.press key false
  | .other => w

end Window

/-- A window and the machine that it shows, the events to come, and what happened so far. -/
structure Session where
  platform : Platform
  window : Window
  machine : Machine
  feed : Feed
  effects : Effects
  /-- Completed ticks of this run. -/
  ticks : Nat

namespace Session

/-- Nothing has happened yet. -/
def fresh (window : Window) (machine : Machine) (feed : Feed) (platform : Platform) : Session :=
  ⟨platform, window, machine, feed, .none, 0⟩

/-- Makes a call that no host refuses. -/
def call (s : Session) (c : Call) : Session := { s with effects := s.effects.call c }

/-- Makes a call, which the host may refuse. -/
def ask (s : Session) (c : Call) : Outcome RunFault Session Unit :=
  match s.platform.refusal? s.effects.calls c with
  | none => .done (s.call c) ()
  | some reason => .stopped (s.call c) (.refused c reason)

/-- Makes calls in turn, until one of them is refused. -/
def askAll (s : Session) : List Call → Outcome RunFault Session Unit
  | [] => .done s ()
  | c :: cs => (s.ask c).andThen fun s _ => s.askAll cs

/-- Handles the next batch of events. -/
def poll (s : Session) : Session :=
  let (batch, feed) := s.feed.poll
  { s with feed, window := batch.foldl Window.handle s.window }

/-- Shows the screen. -/
def present (s : Session) : Outcome RunFault Session Unit :=
  match Picture.ofScreen s.machine.screen s.window.palette with
  | .error e => .stopped s (.picture e)
  | .ok picture =>
    (s.askAll (s.window.showing picture)).andThen fun s _ =>
      .done { s with window := { s.window with frames := s.window.frames + 1 } } ()

/-- Switches the tone, if there is a beeper. -/
def soundTone (s : Session) (on : Bool) : Session :=
  match s.window.beeper with
  | none => s
  | some b =>
    let (calls, b) := b.update on
    { s with
      window := { s.window with beeper := some b }
      effects := s.effects.callAll calls }

/-- Ticks the machine once. -/
def tick (s : Session) : Outcome RunFault Session Signals :=
  let keys := s.window.held.toKeys
  let effects := s.effects.noteAll (s.machine.tickLog keys)
  match s.machine.tick keys with
  | ⟨machine, .error e⟩ => .stopped { s with machine, effects } (.machine e)
  | ⟨machine, .ok signals⟩ => .done { s with machine, effects, ticks := s.ticks + 1 } signals

/-- One round behind its events: a tick and what its signals ask for. -/
def step (s : Session) : Outcome RunFault Session Unit :=
  s.tick.andThen fun s signals =>
    (if signals.redraw then s.present else .done s ()).andThen fun s _ =>
      (s.soundTone signals.tone).ask (.clock s.window.hz)

/-- Rounds, until a batch of events asks to stop. -/
def loop (s : Session) : Nat → Outcome RunFault Session Unit
  | 0 => .done s ()
  | n + 1 =>
    let s := s.poll
    if s.window.stopRequested then .done s () else s.step.andThen fun s _ => s.loop n

/-- Switches the tone off and shuts the host down. -/
def finish (s : Session) : Session :=
  match s.window.beeper with
  | none => s.call .quit
  | some b =>
    let (calls, b) := b.close
    { s with
      window := { s.window with beeper := some b }
      effects := (s.effects.callAll calls).call .quit }

/-- Starts the host and opens the window. -/
def start (s : Session) : Outcome RunFault Session Unit :=
  ((s.call .init).askAll s.window.opening).andThen fun s _ =>
    .done { s with effects := s.effects.note s.window.openedLine } ()

/-- Opens the beeper. Without a mixer the window has no beeper from now on. -/
def openBeeper (s : Session) : Outcome RunFault Session Unit :=
  match s.window.beeper with
  | none => .done s ()
  | some b =>
    let (effects, o) := b.openOn s.platform s.effects.calls
    let s := { s with effects := s.effects ++ effects }
    match o.answer with
    | .error e => .stopped s (.tone e)
    | .ok true => .done { s with window := { s.window with beeper := some o.state } } ()
    | .ok false => .done { s with window := { s.window with beeper := none } } ()

/-- How many rounds a run has: as many as asked for, or enough to reach the end of the feed and the
quit behind it, if there is one. -/
def rounds (feed : Feed) : Option Int → Nat
  | some n => n.toNat
  | none => feed.batches.length + if feed.quitsAtEnd then 1 else 0

/-- Shows the screen and runs the loop. -/
def perform (s : Session) (limit : Option Int) : Outcome RunFault Session Unit :=
  s.present.andThen fun s _ => s.loop (rounds s.feed limit)

end Session

namespace Window

/-- What comes before the guarded part of a run: the host is started, and the window and its beeper
are opened. -/
def prepare (w : Window) (machine : Machine) (feed : Feed) (platform : Platform) :
    Outcome RunFault Session Unit :=
  (Session.fresh w machine feed platform).start.andThen fun s _ =>
    s.openBeeper.andThen fun s _ =>
      .done { s with window := { s.window with stopRequested := false } } ()

/-- Runs a window on a machine. The answer is the number of ticks. -/
def run (w : Window) (machine : Machine) (feed : Feed) (platform : Platform)
    (limit : Option Int) : Outcome RunFault Session Nat :=
  (w.prepare machine feed platform).andThen fun s _ =>
    let o := s.perform limit
    ⟨o.state.finish, o.answer.map fun _ => o.state.ticks⟩

end Window

end ChipEight.Host
