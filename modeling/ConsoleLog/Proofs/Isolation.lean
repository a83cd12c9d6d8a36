import ConsoleLog.Proofs.Leakage
import ConsoleLog.Proofs.Session
import ConsoleLog.Proofs.Simulation

/-!
# Operations on their own

An operation of a session does what it would do first thing on a new exporter, as long as the colors
that the session began with are there when it starts: of all that came before it only the number of
calls counts, since the script numbers its faults by it.
-/

namespace ConsoleLog

namespace Script

/-- The faults of a script of which `n` calls are past, numbered from the next call on. -/
def faultsFrom (n : Nat) (faults : List (Nat × Fault)) : List (Nat × Fault) :=
  faults.filterMap fun f => if n ≤ f.1 then some (f.1 - n, f.2) else none

theorem lookup_faultsFrom (n k : Nat) (faults : List (Nat × Fault)) :
    (faultsFrom n faults).lookup k = faults.lookup (n + k) := by
  induction faults with
  | nil => rfl
  | cons f faults ih =>
    obtain ⟨m, f⟩ := f
    rw [faultsFrom] at ih ⊢
    rw [List.filterMap_cons, List.lookup_cons]
    by_cases hm : n ≤ m
    · have hkey : (k == m - n) = (n + k == m) := by
        rw [Bool.eq_iff_iff, beq_iff_eq, beq_iff_eq]
        omega
      simp only [if_pos hm, List.lookup_cons, hkey, ih]
    · have hkey : (n + k == m) = false := by
        rw [beq_eq_false_iff_ne]
        omega
      simp only [if_neg hm, hkey, ih]

/-- The first script has the past behind it, and has still before it what the second has. -/
structure Continues (past : List JournalEntry) (s t : Script) : Prop where
  colors : s.colors = t.colors
  faults : t.faults = faultsFrom past.length s.faults
  poison : s.poison = t.poison
  journal : s.journal = past ++ t.journal

namespace Continues

variable {past : List JournalEntry} {s t : Script}

theorem fault?_eq (h : Continues past s t) (c : Call) : s.fault? c = t.fault? c := by
  have hlookup : s.faults.lookup s.nextCall = t.faults.lookup t.nextCall := by
    rw [h.faults, lookup_faultsFrom, nextCall, h.journal, List.length_append]
    rfl
  have hpoisoned : s.isPoisoned c = t.isPoisoned c := by
    unfold isPoisoned
    rw [h.poison]
  unfold fault? faultAt?
  rw [hlookup, hpoisoned]

theorem record (h : Continues past s t) (c : Call) (accepted : Bool) :
    Continues past (s.record c accepted) (t.record c accepted) := by
  refine ⟨h.colors, h.faults, h.poison, ?_⟩
  simp only [Script.record, h.journal, List.append_assoc]

theorem perform (h : Continues past s t) (c : Call) :
    (s.perform c).1 = (t.perform c).1 ∧ Continues past (s.perform c).2 (t.perform c).2 := by
  have hfault := h.fault?_eq c
  cases hf : t.fault? c with
  | some f =>
    rw [hf] at hfault
    rw [perform_of_fault hf, perform_of_fault hfault]
    exact ⟨rfl, h.record c false⟩
  | none =>
    rw [hf] at hfault
    rw [perform_of_clear hf, perform_of_clear hfault]
    obtain ⟨_, hfaults, hpoison, hjournal⟩ := h.record c true
    exact ⟨rfl, congrArg c.recolor h.colors, hfaults, hpoison, hjournal⟩

end Continues

def continuation (past : List JournalEntry) : Simulation Script Script where
  Related := Continues past
  colors_eq h := h.colors
  outcome_eq h c := (h.perform c).1
  related_perform h c := (h.perform c).2

theorem perform_poison (s : Script) (c : Call) : (s.perform c).2.poison = s.poison := by
  unfold perform
  split <;> rfl

end Script

theorem Follows.script {s s' : Script} {as : List (Attempt Script)} (h : Follows s as s') :
    s'.faults = s.faults ∧ s'.poison = s.poison := by
  refine h.invariant (fun x => x.faults = s.faults ∧ x.poison = s.poison) ?_ ⟨rfl, rfl⟩
  rintro x c ⟨hfaults, hpoison⟩
  exact ⟨(Script.perform_faults x c).trans hfaults, (Script.perform_poison x c).trans hpoison⟩

/-! ## Sessions on a new script -/

namespace Exporter

theorem colors_lastSink {σ : Type} [Sink σ] [LawfulSink σ] (clock : Nat → Nat → Time.Clock)
    (e : Exporter σ) (ops : List Operation) (hs : ∀ a ∈ e.history clock ops, a.Spared) :
    Sink.colors (e.lastSink clock ops) = Sink.colors e.sink := by
  obtain ⟨_, hsteps⟩ := keeps_history clock e ops hs
  unfold lastSink
  cases hlast : (e.session clock ops).getLast? with
  | none => rfl
  | some st => exact hsteps st (List.mem_of_getLast? hlast)

/-- An exporter that has just been built, on a new script with the first one's colors and poison and
with those of its faults that are still to come when `n` calls are past. -/
def anew (e : Exporter Script) (n : Nat) : Exporter Script :=
  ⟨e.settings, .new (.new e.sink.colors (Script.faultsFrom n e.sink.faults) e.sink.poison), false⟩

theorem continues_anew (clock : Nat → Nat → Time.Clock) (e : Exporter Script) (ops : List Operation)
    (hs : ∀ a ∈ e.history clock ops, a.Spared) :
    Script.Continues (e.lastSink clock ops).journal (e.after clock ops).sink
      (e.anew (e.lastSink clock ops).nextCall).sink := by
  rw [sink_after]
  obtain ⟨hfaults, hpoison⟩ := (follows_history clock e ops).script
  refine ⟨colors_lastSink clock e ops hs, ?_, hpoison, (List.append_nil _).symm⟩
  rw [hfaults]
  rfl

/-- An operation of a session that draws ends as it would on a new exporter, with the same events,
and makes the same calls, which its journal adds to the one before. -/
theorem session_isolates_operations (clock : Nat → Nat → Time.Clock) (e : Exporter Script)
    (before after : List Operation) (op : Operation)
    (noAbort : ∀ n m, (n, .abort m) ∉ e.sink.faults)
    (unhit : ∀ a ∈ e.history clock (before ++ op :: after), a.planned.restores →
      e.sink.faults.lookup a.before.nextCall = none)
    (draws : (∃ rs, op = .exportBatch rs) ∨
      (∃ rs, op = .export rs) ∧ e.isShutdown = false ∧ .shutdown ∉ before) :
    let prior := e.lastSink clock before
    let alone := (e.anew prior.nextCall).step (clock before.length) op
    ∃ st, (e.session clock (before ++ op :: after))[before.length]? = some st ∧
      st.reply = alone.reply ∧ st.events = alone.events ∧
      st.exporter.sink.journal = prior.journal ++ alone.exporter.sink.journal := by
  intro prior alone
  refine ⟨_, session_getElem?_length clock e before after op, ?_⟩
  have hspared : ∀ a ∈ e.history clock before, a.Spared := by
    apply spared_history clock e before noAbort
    intro a ha
    apply unhit a
    rw [history_append]
    exact List.mem_append_left _ ha
  have hprior := continues_anew clock e before hspared
  have hsettings : (e.after clock before).settings = (e.anew prior.nextCall).settings :=
    settings_after clock e before
  have hdraws : (∃ rs, op = .exportBatch rs) ∨ (∃ rs, op = .export rs) ∧
      (e.after clock before).isShutdown = false ∧ (e.anew prior.nextCall).isShutdown = false := by
    rcases draws with hbatch | ⟨hexport, hlive, hbefore⟩
    · exact Or.inl hbatch
    · exact Or.inr ⟨hexport, (isShutdown_after hbefore clock e).trans hlive, rfl⟩
  obtain ⟨hreply, hevents, hsink⟩ :=
    (Script.continuation _).step hsettings hprior (clock before.length) hdraws
  exact ⟨hreply, hevents, hsink.journal⟩

/-- After a failed batch and a shutdown, the fault with number 6 meets the third call of a batch. -/
theorem session_isolates_operations_after_failure :
    let r : RecordView := ⟨.level .unassigned, "App", 7, some "m", none, some "a\r\nb", none⟩
    let e : Exporter Script :=
      ⟨⟨none, true, .standard⟩,
        .new (.new ⟨.magenta, .darkBlue⟩ [(1, .failure "closed"), (6, .failure "gone")] none), false⟩
    let before : List Operation := [.exportBatch [r, r], .shutdown]
    let clock : Nat → Nat → Time.Clock := fun _ _ => ⟨.epoch, 0⟩
    let alone := (e.anew 4).step (clock 2) (.exportBatch [r])
    (∀ n m, (n, .abort m) ∉ e.sink.faults) ∧
    (∀ a ∈ e.history clock (before ++ [.exportBatch [r], .describe]), a.planned.restores →
      e.sink.faults.lookup a.before.nextCall = none) ∧
    alone.reply = .batch (.failed ⟨0, .sink "gone"⟩) ∧
    alone.events = [.unknownSeverity (.level .unassigned)] ∧
    ∃ st, (e.session clock (before ++ [.exportBatch [r], .describe]))[2]? = some st ∧
      st.reply = alone.reply ∧ st.events = alone.events ∧
      st.exporter.sink.journal = (e.lastSink clock before).journal ++ alone.exporter.sink.journal := by
  intro r e before clock alone
  have noAbort : ∀ n m, (n, .abort m) ∉ e.sink.faults := by simp [e, Script.new]
  have unhit : ∀ a ∈ e.history clock (before ++ [.exportBatch [r], .describe]), a.planned.restores →
      e.sink.faults.lookup a.before.nextCall = none := by decide
  have hnext : (e.lastSink clock before).nextCall = 4 := by decide
  obtain ⟨st, hst, hreply, hevents, hjournal⟩ :=
    session_isolates_operations clock e before [.describe] (.exportBatch [r]) noAbort unhit
      (Or.inl ⟨[r], rfl⟩)
  rw [hnext] at hreply hevents hjournal
  exact ⟨noAbort, unhit, by decide, by decide, st, hst, hreply, hevents, hjournal⟩

end Exporter

end ConsoleLog
