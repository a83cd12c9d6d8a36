import ConsoleLog.Run

/-!
# Locks

A lock gives its value to one stretch of work at a time, and an abort of that work poisons it for good.
A poisoned lock still has its value, but gives it as an error, from which it has to be recovered.
-/

namespace ConsoleLog

structure Lock (α : Type) where
  value : α
  poisoned : Bool

/-- What a poisoned lock answers, with the value inside. -/
structure Poisoned (α : Type) where
  inner : α

def Poisoned.recover {α : Type} : Except (Poisoned α) α → α
  | .ok a => a
  | .error e => e.inner

namespace Lock

variable {α σ ε δ : Type}

def new (a : α) : Lock α := ⟨a, false⟩

/-- The value, for one stretch of work. -/
def acquire (l : Lock α) : Except (Poisoned α) α :=
  if l.poisoned then .error ⟨l.value⟩ else .ok l.value

/-- The value, after which there is no lock any more. -/
def intoInner (l : Lock α) : Except (Poisoned α) α :=
  if l.poisoned then .error ⟨l.value⟩ else .ok l.value

def release (l : Lock α) (a : α) (aborted : Bool) : Lock α := ⟨a, l.poisoned || aborted⟩

/-- What the run did to the value of the lock, whose poison comes of its abort. -/
def after (l : Lock σ) (r : Run σ ε) : Run (Lock σ) ε :=
  ⟨r.outcome, l.release r.sink r.outcome.isAborted, r.events⟩

/-- Work under the lock, poisoned or not. -/
def hold (l : Lock σ) (work : σ → Run σ ε) : Run (Lock σ) ε :=
  l.after (work (Poisoned.recover l.acquire))

@[simp] theorem recover_acquire (l : Lock α) : Poisoned.recover l.acquire = l.value := by
  unfold acquire
  split <;> rfl

@[simp] theorem recover_intoInner (l : Lock α) : Poisoned.recover l.intoInner = l.value := by
  unfold intoInner
  split <;> rfl

theorem hold_eq (l : Lock σ) (work : σ → Run σ ε) : l.hold work = l.after (work l.value) := by
  rw [hold, recover_acquire]

@[simp] theorem value_new (a : α) : (new a).value = a := rfl

@[simp] theorem value_release (l : Lock α) (a : α) (aborted : Bool) :
    (l.release a aborted).value = a := rfl

theorem release_release (l : Lock α) (a b : α) (aborted aborted' : Bool) :
    (l.release a aborted).release b aborted' = l.release b (aborted || aborted') := by
  rw [release, release, release, Bool.or_assoc]

theorem release_self (l : Lock α) : l.release l.value false = l := by
  rw [release, Bool.or_false]

theorem after_idle (l : Lock σ) : l.after (.idle l.value : Run σ ε) = .idle l := by
  show (⟨_, l.release l.value false, _⟩ : Run (Lock σ) ε) = _
  rw [release_self]
  rfl

/-- A run in two parts leaves the lock that its second part leaves of what the first one left. -/
theorem after_andThen (l : Lock σ) (r : Run σ ε) (next : σ → Run σ ε) :
    l.after (r.andThen next) = (l.after r).andThen fun m => m.after (next m.value) := by
  obtain ⟨o, s, events⟩ := r
  cases o with
  | done => simp [after, Run.andThen, release, Outcome.isAborted]
  | failed e => rfl
  | aborted m => rfl

end Lock

end ConsoleLog
