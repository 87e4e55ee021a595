import Mathlib.Logic.Function.Basic
import Telegraph.Backoff
import Telegraph.Storage

namespace Telegraph
open Lib.Retry Function

namespace Attempt
variable {δ : Type}

def ending (a : Attempt δ) : Ending :=
  match a.status with
  | .succeeded => .succeeded
  | _ => if a.retryable then .retryable else .terminal

def toTry (a : Attempt δ) : Try := ⟨a.startedAt, a.finishedAt.map fun f => (f, a.ending)⟩

/-- The columns an ending of this kind writes. -/
def ended (a : Attempt δ) (t : Int) (how : Finish) (detail : Option δ) (message : Option String) :
    Attempt δ :=
  { a with
    finishedAt := some t
    status := if how.ending = .succeeded then .succeeded else .failed
    retryable := decide (how.ending = .retryable)
    detail := detail
    errorMessage := message }

end Attempt

/-- What the store says of one piece of work: its attempts and where it stands. -/
structure Ledger (δ : Type) where
  rows : List (Attempt δ)
  phase : Phase
  since : Option Int
  window : Option Int

namespace Ledger
variable {δ : Type}

def track (l : Ledger δ) : Track := ⟨l.rows.map Attempt.toTry, l.phase, l.since, l.window⟩

def Closed (l : Ledger δ) : Prop := ∀ a ∈ l.rows, a.finishedAt ≠ none

/-- Attempts are numbered in start order, and one is in progress until it is finished. -/
def Sound (l : Ledger δ) : Prop :=
  (∀ n a, l.rows[n]? = some a → a.attemptNumber = n + 1) ∧
    ∀ a ∈ l.rows, a.finishedAt = none ↔ a.status = .inProgress

def start (l : Ledger δ) (attemptId parent : String) (t : Int) : Ledger δ :=
  { l with
    rows := l.rows ++ [AttemptTable.started attemptId parent (l.rows.length + 1) t] }

def enter (l : Ledger δ) (since : Option Int) : Ledger δ :=
  { l with phase := .active, since := since }

def reopen (l : Ledger δ) (m : Int) : Ledger δ := { l with phase := .active, window := some m }

/-- A restart closes what was in flight and gives back what was claimed and never tried. -/
def recover (l : Ledger δ) (close : Attempt δ → Attempt δ) : Ledger δ :=
  { l with
    rows := l.rows.map close
    phase := if l.phase = .active ∧ l.rows = [] ∧ l.since = none then .waiting else l.phase }

end Ledger

/-- What a worker knows of the work and holds of it. -/
inductive Slot (δ : Type) where
  | free
  /-- a tick that began at `t` and saw these ledgers -/
  | looking (t : Int) (seen : List (String × Ledger δ))
  /-- a tick that began at `t` and took work nobody had tried -/
  | claimed (t : Int) (x : String)
  /-- an attempt in flight, with the anchor of its deadline -/
  | busy (x attemptId : String) (anchor : Int)
  /-- the integration answered at `t` -/
  | ended (x attemptId : String) (anchor t : Int)

namespace Slot
variable {δ : Type}

/-- The piece of work whose attempt in flight is this worker's. -/
def owner : Slot δ → Option String
  | busy x _ _ => some x
  | ended x _ _ _ => some x
  | _ => none

/-- The tick, begun at `t`, may start `x` as long as it stands as in `l`. -/
inductive Offers : Slot δ → Int → String → Ledger δ → Prop where
  | seen {t : Int} {x : String} {l : Ledger δ} {seen : List (String × Ledger δ)} :
      (x, l) ∈ seen → Offers (.looking t seen) t x l
  | claimed {t : Int} {x : String} {l : Ledger δ} : l.rows = [] → Offers (.claimed t x) t x l

end Slot

/-- The work of one pipeline and its workers. -/
structure Board (ι δ : Type) where
  items : String → Ledger δ
  slots : ι → Slot δ
  clock : Int
  running : Bool

namespace Board
variable {ι δ : Type} [DecidableEq ι]

/-- A clock reading taken no later than now. -/
def Reading (b : Board ι δ) (t : Int) : Prop := t ≤ b.clock ∧ Timestamp.InYears t

def put (b : Board ι δ) (x : String) (l : Ledger δ) : Board ι δ :=
  { b with items := update b.items x l }

def hand (b : Board ι δ) (i : ι) (s : Slot δ) : Board ι δ := { b with slots := update b.slots i s }

def stop (b : Board ι δ) : Board ι δ := { b with slots := fun _ => .free, running := false }

/-- The moves of a step that touches one piece of work. -/
def only (x : String) (moves : List Move) : String → List Move := update (fun _ => []) x moves

/-- What a restart does to the history of a piece of work. -/
def abandons (b : Board ι δ) (x : String) : List Move :=
  ((b.items x).rows.filter (·.finishedAt.isNone)).map fun _ => .finished b.clock .abandoned

/-- The purpose of the attempt tables, one step at a time: who may start work,
when, and how it leaves their hands. -/
inductive Step (p : Policy) (b : Board ι δ) : (String → List Move) → Board ι δ → Prop where
  | still : Step p b (fun _ => []) b
  | wake (i : ι) : b.running = true → b.slots i = .free → Timestamp.InYears b.clock →
      Step p b (fun _ => []) (b.hand i (.looking b.clock []))
  | look (i : ι) (t : Int) (seen : List (String × Ledger δ)) : b.running = true →
      b.slots i = .looking t [] →
      (∀ x l, (x, l) ∈ seen → b.items x = l ∧ l.phase = .active ∧ l.Closed) →
      Step p b (fun _ => []) (b.hand i (.looking t seen))
  | release (i : ι) (t : Int) (seen : List (String × Ledger δ)) : b.slots i = .looking t seen →
      Step p b (fun _ => []) (b.hand i .free)
  | claim (i : ι) (t : Int) (x : String) : b.running = true → b.slots i = .looking t [] →
      (b.items x).phase = .waiting →
      Step p b (fun _ => []) ((b.put x ((b.items x).enter none)).hand i (.claimed t x))
  | lost (i : ι) (t : Int) (x : String) : b.slots i = .claimed t x → ¬ (b.items x).Closed →
      Step p b (fun _ => []) (b.hand i .free)
  | select (x : String) (since : Int) : (b.items x).phase = .waiting → since ≤ b.clock →
      Step p b (fun _ => []) (b.put x ((b.items x).enter (some since)))
  | start (i : ι) (t : Int) (x attemptId : String) (l : Ledger δ) (anchor : Int) :
      b.running = true → (b.slots i).Offers t x l → l.track.Due p t →
      (b.items x).rows.length = l.rows.length →
      ((b.items x).start attemptId x t).track.anchor = some anchor →
      Step p b (only x [.started t])
        ((b.put x ((b.items x).start attemptId x t)).hand i (.busy x attemptId anchor))
  | answer (i : ι) (x attemptId : String) (anchor : Int) : b.running = true →
      b.slots i = .busy x attemptId anchor →
      Step p b (fun _ => []) (b.hand i (.ended x attemptId anchor b.clock))
  | finish (i : ι) (x attemptId : String) (anchor t : Int) (how : Finish)
      (before : List (Attempt δ)) (a : Attempt δ) (detail : Option δ) (message : Option String) :
      b.slots i = .ended x attemptId anchor t → (b.items x).rows = before ++ [a] →
      (how = .retryable → t < anchor + p.limit) →
      Step p b (only x [.finished t how])
        ((b.put x ⟨before ++ [a.ended t how detail message], Phase.after how, (b.items x).since,
          (b.items x).window⟩).hand i .free)
  | reopen (x : String) (m : Int) : (b.items x).phase = .failed → m ≤ b.clock →
      Step p b (only x [.reopened m]) (b.put x ((b.items x).reopen m))
  | stop : Step p b (fun _ => []) b.stop
  | recover (detail : Attempt δ → Option δ) (message : Option String) : b.running = false →
      Step p b b.abandons { b with
        items := fun x => (b.items x).recover fun a =>
          if a.finishedAt.isNone then a.ended b.clock .abandoned (detail a) message else a
        running := true }

/-- What a worker's slot promises of the work it names. -/
def Keeps (b : Board ι δ) : Slot δ → Prop
  | .free => True
  | .looking t seen => b.Reading t ∧ ∀ x l, (x, l) ∈ seen → l.phase = .active ∧ l.Closed ∧
      l.rows.length ≤ (b.items x).rows.length ∧
      ((b.items x).rows.length = l.rows.length → b.items x = l)
  | .claimed t x => b.Reading t ∧ ((b.items x).rows = [] → (b.items x).phase = .active)
  | .busy x attemptId anchor =>
    (∃ before a, (b.items x).rows = before ++ [a] ∧ a.id = attemptId ∧ a.finishedAt = none) ∧
      (b.items x).track.anchor = some anchor
  | .ended x attemptId anchor t =>
    (∃ before a, (b.items x).rows = before ++ [a] ∧ a.id = attemptId ∧ a.finishedAt = none ∧
        a.startedAt ≤ t) ∧ (b.items x).track.anchor = some anchor ∧ t ≤ b.clock ∧ anchor ≤ t ∧
      ∀ w, (b.items x).window = some w → w ≤ t

/-- What holds of every board a service can reach. `history` is what happened to
each piece of work so far. -/
structure Inv (p : Policy) (history : String → List Move) (b : Board ι δ) : Prop where
  runs : ∀ x, Runs p (history x) (b.items x).track
  sound : ∀ x, (b.items x).Sound
  started : ∀ x, ∀ a ∈ (b.items x).rows, b.Reading a.startedAt
  since : ∀ x s, (b.items x).since = some s → s ≤ b.clock
  window : ∀ x w, (b.items x).window = some w → w ≤ b.clock
  keeps : ∀ i, b.Keeps (b.slots i)
  apart : ∀ i j x, (b.slots i).owner = some x → (b.slots j).owner = some x → i = j
  owned : b.running = true → ∀ x, ¬ (b.items x).Closed → ∃ i, (b.slots i).owner = some x
  taken : b.running = true → ∀ x, (b.items x).phase = .active → (b.items x).rows = [] →
    (b.items x).since = none → ∃ i t, b.slots i = .claimed t x
  stopped : b.running = false → ∀ i, b.slots i = .free

end Board
end Telegraph
