import ConsoleLog.Proofs.Trace

/-!
# Sessions in parts

A list of operations leaves an exporter, and a session over two lists is the session over the first
and then the session of the exporter that it left over the second. Of the first the settings stay, and
the flag of a shutdown.
-/

namespace ConsoleLog

theorem Operation.isShutdown_iff {op : Operation} : op.isShutdown = true ↔ op = .shutdown := by
  cases op <;> simp [isShutdown]

namespace Exporter

variable {σ : Type} [Sink σ]

def after (clock : Nat → Nat → Time.Clock) (e : Exporter σ) : List Operation → Exporter σ
  | [] => e
  | op :: ops => (e.step (clock 0) op).exporter.after (fun n => clock (n + 1)) ops

theorem sink_after (clock : Nat → Nat → Time.Clock) (e : Exporter σ) (ops : List Operation) :
    (e.after clock ops).sink = e.lastSink clock ops := by
  induction ops generalizing clock e with
  | nil => rfl
  | cons op ops ih => rw [after, ih, lastSink_cons]

theorem settings_after (clock : Nat → Nat → Time.Clock) (e : Exporter σ) (ops : List Operation) :
    (e.after clock ops).settings = e.settings := by
  induction ops generalizing clock e with
  | nil => rfl
  | cons op ops ih => rw [after, ih, step_settings]

theorem isShutdown_step (clock : Nat → Time.Clock) (e : Exporter σ) (op : Operation) :
    (e.step clock op).exporter.isShutdown = (e.isShutdown || op.isShutdown) := by
  rw [step_eq]

theorem isShutdown_after_eq (clock : Nat → Nat → Time.Clock) (e : Exporter σ)
    (ops : List Operation) :
    (e.after clock ops).isShutdown = (e.isShutdown || ops.any Operation.isShutdown) := by
  induction ops generalizing clock e with
  | nil => exact (Bool.or_false _).symm
  | cons op ops ih => rw [after, ih, isShutdown_step, Bool.or_assoc, List.any_cons]

theorem isShutdown_after {ops : List Operation} (h : .shutdown ∉ ops)
    (clock : Nat → Nat → Time.Clock) (e : Exporter σ) :
    (e.after clock ops).isShutdown = e.isShutdown := by
  have hnone : ops.any Operation.isShutdown = false := by
    rw [List.any_eq_false]
    intro op hop hshutdown
    rw [Operation.isShutdown_iff.mp hshutdown] at hop
    exact h hop
  rw [isShutdown_after_eq, hnone, Bool.or_false]

theorem session_append (clock : Nat → Nat → Time.Clock) (e : Exporter σ) (ops ops' : List Operation) :
    e.session clock (ops ++ ops') =
      e.session clock ops ++ (e.after clock ops).session (fun n => clock (n + ops.length)) ops' := by
  induction ops generalizing clock e with
  | nil => rfl
  | cons op ops ih =>
    have hclock : (fun n => clock (n + ops.length + 1)) =
        fun n => clock (n + (op :: ops).length) := rfl
    rw [List.cons_append, session, session, ih, after, List.cons_append, hclock]

theorem length_session (clock : Nat → Nat → Time.Clock) (e : Exporter σ) (ops : List Operation) :
    (e.session clock ops).length = ops.length := by
  induction ops generalizing clock e with
  | nil => rfl
  | cons op ops ih => simp only [session, List.length_cons, ih]

theorem session_getElem?_length (clock : Nat → Nat → Time.Clock) (e : Exporter σ)
    (before after : List Operation) (op : Operation) :
    (e.session clock (before ++ op :: after))[before.length]? =
      some ((e.after clock before).step (clock before.length) op) := by
  have hlength := length_session clock e before
  rw [session_append, List.getElem?_append_right (Nat.le_of_eq hlength), hlength, Nat.sub_self,
    session, Nat.zero_add]
  rfl

theorem history_append (clock : Nat → Nat → Time.Clock) (e : Exporter σ) (ops ops' : List Operation) :
    e.history clock (ops ++ ops') =
      e.history clock ops ++ (e.after clock ops).history (fun n => clock (n + ops.length)) ops' := by
  induction ops generalizing clock e with
  | nil => rfl
  | cons op ops ih =>
    have hclock : (fun n => clock (n + ops.length + 1)) =
        fun n => clock (n + (op :: ops).length) := rfl
    rw [List.cons_append, history, history, ih, after, List.append_assoc, hclock]

end Exporter

end ConsoleLog
