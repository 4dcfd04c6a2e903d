import Mathlib.Data.Fintype.Basic
import Mathlib.Data.Prod.Lex
import Mathlib.Logic.Function.Basic
import Pro5Android.Lib.Circular
import Pro5Android.Lib.While

/-!
# Events of the radio daemon

Model of `legacy/device-meizu-m86-cm14/libril/ril_event.cpp` (lines 73–330): the list of
timers, sorted by deadline, the list of what is to be called, and the table of watched
descriptors with the set given to `select`. A function fails where it goes through a null
pointer; a walk along a list that needs more than `fuel` steps fails, too.

* `ril_event_set`, `ril_event_add`, `ril_timer_add`, `ril_event_del`: what clients call.
* `processTimeouts`, `processReadReadies`, `calcNextTimeout`: what the loop does.

The callback of an event and its argument are not part of the model: calling it is a step
of the loop, and what it does is further calls of the client's functions.
-/

namespace Pro5Android.Ril

open Lib (Links Loop)

/-! ## Times (lines 37–63) -/

structure Timeval where
  tv_sec : ℤ
  tv_usec : ℤ
deriving DecidableEq

namespace Timeval

def key (t : Timeval) : ℤ ×ₗ ℤ := toLex (t.tv_sec, t.tv_usec)

theorem key_injective : Function.Injective key := by
  intro a b h
  have hab : (a.tv_sec, a.tv_usec) = (b.tv_sec, b.tv_usec) := toLex.injective h
  obtain ⟨hsec, husec⟩ := Prod.mk.injEq _ _ _ _ ▸ hab
  cases a
  cases b
  exact congrArg₂ mk hsec husec

/-- By the seconds, then by the microseconds. -/
instance : LinearOrder Timeval := .lift' key key_injective

theorem lt_iff {a b : Timeval} :
    a < b ↔ a.tv_sec < b.tv_sec ∨ a.tv_sec = b.tv_sec ∧ a.tv_usec < b.tv_usec := by
  show key a < key b ↔ _
  rw [key, key, Prod.Lex.toLex_lt_toLex]

end Timeval

def timeradd (a b : Timeval) : Timeval :=
  let sec := a.tv_sec + b.tv_sec
  let usec := a.tv_usec + b.tv_usec
  if usec ≥ 1000000 then ⟨sec + 1, usec - 1000000⟩ else ⟨sec, usec⟩

def timercmp (a b : Timeval) (op : ℤ → ℤ → Bool) : Bool :=
  if a.tv_sec = b.tv_sec then op a.tv_usec b.tv_usec else op a.tv_sec b.tv_sec

def timersub (a b : Timeval) : Timeval :=
  let sec := a.tv_sec - b.tv_sec
  let usec := a.tv_usec - b.tv_usec
  if usec < 0 then ⟨sec - 1, usec + 1000000⟩ else ⟨sec, usec⟩

theorem timercmp_lt (a b : Timeval) : timercmp a b (fun x y => x < y) = decide (a < b) := by
  rw [timercmp]
  split_ifs with h
  · simp [Timeval.lt_iff, h]
  · simp [Timeval.lt_iff, h]

theorem timercmp_gt (a b : Timeval) : timercmp a b (fun x y => x > y) = decide (b < a) := by
  rw [timercmp]
  split_ifs with h
  · simp [Timeval.lt_iff, h]
  · simp [Timeval.lt_iff, Ne.symm h]

/-- Nothing that is not negative brings a time forward. -/
theorem le_timeradd {a b : Timeval} (hsec : 0 ≤ b.tv_sec) (husec : 0 ≤ b.tv_usec) :
    a ≤ timeradd a b := by
  rw [← not_lt, Timeval.lt_iff, timeradd]
  split_ifs with h
  · dsimp only
    omega
  · dsimp only
    omega

/-! ## Memory (lines 65–71, `ril_event.h`) -/

/-- The two sentinels, and the events of the clients. -/
inductive Addr
  | timerList
  | pendingList
  | event (n : ℕ)
deriving DecidableEq

/-- What a `struct ril_event` has beside its links. -/
structure RilEvent where
  fd : ℤ
  index : ℤ
  persist : Bool
  timeout : Timeval

abbrev MAX_FD_EVENTS : ℕ := 8

structure Memory where
  links : Links Addr
  event : Addr → RilEvent
  watchTable : Fin MAX_FD_EVENTS → Option Addr
  readFds : ℤ → Bool
  nfds : ℤ

/-! ## Lists (lines 103–131) -/

variable (s : Memory)

def initList (list : Addr) : Memory :=
  { s with
    links := s.links.initList list
    event := Function.update s.event list ⟨-1, 0, false, ⟨0, 0⟩⟩ }

def addToList (ev list : Addr) : Option Memory :=
  (s.links.addToList ev list).map fun l => { s with links := l }

def removeFromList (ev : Addr) : Option Memory :=
  (s.links.removeFromList ev).map fun l => { s with links := l }

/-! ## The table of descriptors -/

/-- One round of the search for the highest descriptor (lines 146–150). -/
def higherFd (n : ℤ) (i : Fin MAX_FD_EVENTS) : ℤ :=
  match s.watchTable i with
  | some rev => if (s.event rev).fd > n then (s.event rev).fd else n
  | none => n

/-- Lines 143–151. -/
def highestFd : ℤ := (List.finRange MAX_FD_EVENTS).foldl (higherFd s) 0

/-- Lines 134–156. -/
def removeWatch (ev : Addr) (index : Fin MAX_FD_EVENTS) : Memory :=
  let s := { s with
    watchTable := Function.update s.watchTable index none
    event := Function.update s.event ev { s.event ev with index := -1 }
    readFds := Function.update s.readFds (s.event ev).fd false }
  if (s.event ev).fd + 1 = s.nfds then { s with nfds := highestFd s + 1 } else s

/-! ## The loop's functions -/

/-- The events from `tev` on whose deadline is over go to the pending list
    (lines 169–176). -/
def expire (now : Timeval) : Loop (Memory × Addr) where
  more p := p.2 != .timerList && timercmp now (p.1.event p.2).timeout (fun x y => x > y)
  body p :=
    (p.1.links p.2).next.bind fun next =>
      (removeFromList p.1 p.2).bind fun s =>
        (addToList s p.2 .pendingList).map fun s => (s, next)

/-- Lines 158–179. -/
def processTimeouts (fuel : ℕ) (now : Timeval) : Option Memory :=
  (s.links .timerList).next.bind fun tev => ((expire now).run fuel (s, tev)).map Prod.fst

/-- One round over the table; `n` descriptors are still to be found (lines 187–194). -/
def readReady (rfds : ℤ → Bool) (p : Memory × ℤ) (i : Fin MAX_FD_EVENTS) : Option (Memory × ℤ) :=
  if p.2 > 0 then
    match p.1.watchTable i with
    | some rev =>
      if rfds (p.1.event rev).fd then
        (addToList p.1 rev .pendingList).map fun s =>
          (if (s.event rev).persist then s else removeWatch s rev i, p.2 - 1)
      else some p
    | none => some p
  else some p

/-- Lines 181–199. -/
def processReadReadies (rfds : ℤ → Bool) (n : ℤ) : Option Memory :=
  ((List.finRange MAX_FD_EVENTS).foldlM (readReady rfds) (s, n)).map Prod.fst

/-- What `firePending` does before a callback: the next event, and `ev` taken out
    (lines 206–207). -/
def takePending (ev : Addr) : Option (Memory × Addr) :=
  (s.links ev).next.bind fun next => (removeFromList s ev).map fun s => (s, next)

/-- The time to wait for the first timer `tev`; `none` if there is no timer
    (lines 215–239). -/
def calcNextTimeout (tev : Addr) (now : Timeval) : Option Timeval :=
  if tev = .timerList then none
  else
    some (if timercmp (s.event tev).timeout now (fun x y => x > y) then
      timersub (s.event tev).timeout now
    else ⟨0, 0⟩)

/-! ## The clients' functions -/

/-- Lines 241–250; the static `nfds` is 0. -/
def ril_event_init : Memory :=
  let s := { s with readFds := fun _ => false }
  let s := initList s .timerList
  let s := initList s .pendingList
  { s with watchTable := fun _ => none, nfds := 0 }

/-- Lines 253–262. -/
def ril_event_set (ev : Addr) (fd : ℤ) (persist : Bool) : Memory :=
  { s with
    links := fun a => if a = ev then ⟨none, none⟩ else s.links a
    event := Function.update s.event ev ⟨fd, -1, persist, ⟨0, 0⟩⟩ }

/-- Lines 265–283. -/
def ril_event_add (ev : Addr) : Memory :=
  match (List.finRange MAX_FD_EVENTS).find? fun i => (s.watchTable i).isNone with
  | some i =>
    let s := { s with
      watchTable := Function.update s.watchTable i (some ev)
      event := Function.update s.event ev { s.event ev with index := (i : ℕ) }
      readFds := Function.update s.readFds (s.event ev).fd true }
    if (s.event ev).fd ≥ s.nfds then { s with nfds := (s.event ev).fd + 1 } else s
  | none => s

/-- The walk to the first event that is not before `ev` (lines 301–305). -/
def findPlace (ev : Addr) : Loop Addr where
  more list :=
    timercmp (s.event list).timeout (s.event ev).timeout (fun x y => x < y) &&
      list != .timerList
  body list := (s.links list).next

/-- Lines 286–312. -/
def ril_timer_add (fuel : ℕ) (now : Timeval) (ev : Addr) (tv : Option Timeval) : Option Memory :=
  match tv with
  | some tv =>
    (s.links .timerList).next.bind fun list =>
      let s := { s with
        event := Function.update s.event ev
          { s.event ev with fd := -1, timeout := timeradd now tv } }
      ((findPlace s ev).run fuel list).bind fun list => addToList s ev list
  | none => some s

/-- Lines 315–330. -/
def ril_event_del (ev : Addr) : Memory :=
  if h : 0 ≤ (s.event ev).index ∧ (s.event ev).index < MAX_FD_EVENTS then
    removeWatch s ev ⟨(s.event ev).index.toNat, (Int.toNat_lt h.1).mpr h.2⟩
  else s

end Pro5Android.Ril
