import LineScript.Proofs.Execution

/-!
# Step limits

Without a time limit the only thing a step limit can do to a run is to cut it off. As long as the
limit allows every charge the run makes, it is the same run; a smaller limit stops it at the first
charge beyond the limit, and up to there it is the same run too. The two runs are kept in
lockstep, one step after the other.

A finite step limit also ends every run, with or without a time limit: each step that is allowed
raises the count by one, and each prints at most one line and gives at most one variable a value.
-/

namespace LineScript

namespace Meter

variable {clock : Clock} {steps : Nat}

/-- Below the largest count, counting is exact. -/
theorem next_eq (h : steps < maxCount) : next steps = steps + 1 := by
  unfold next
  omega

/-- A limit that is large enough allows the step. -/
theorem refusal_of_le {allowed : Option UInt64}
    (h : ∀ limit ∈ allowed, steps ≤ limit.toNat) : refusal ⟨allowed, none⟩ clock steps = none := by
  cases allowed with
  | none => rfl
  | some limit =>
      have := h limit rfl
      simp only [refusal, refusal.timeUp, if_neg (Nat.not_lt.mpr this)]

/-- A limit that is too small refuses the step, whatever the clock says. -/
theorem refusal_of_lt {limits : Limits} {limit : UInt64} (limited : limits.maxSteps = some limit)
    (h : limit.toNat < steps) : refusal limits clock steps = some (.stepLimit limit) := by
  simp [refusal, limited, h]

/-- Without a time limit nobody looks at the clock. -/
theorem refusal_untimed {limits : Limits} (untimed : limits.timeoutMs = none) :
    refusal limits clock steps = refusal limits .still steps := by
  simp only [refusal, refusal.timeUp, untimed]

end Meter

namespace Machine

/-- Without a time limit the clock changes nothing. -/
theorem step_untimed {limits : Limits} {clock : Clock} {machine : Machine} {task : Task}
    (untimed : limits.timeoutMs = none) :
    machine.step limits clock task = machine.step limits .still task := by
  simp only [step, Meter.charge, Meter.refusal_untimed untimed]

theorem exec_untimed {limits : Limits} {clock : Clock} (untimed : limits.timeoutMs = none)
    (fuel : Nat) (tasks : List Task) (machine : Machine) :
    exec limits clock fuel tasks machine = exec limits .still fuel tasks machine := by
  induction fuel generalizing tasks machine with
  | zero => cases tasks <;> rfl
  | succ fuel ih =>
      cases tasks with
      | nil => rfl
      | cons task rest => simp only [exec, step_untimed untimed, ih]

section Lockstep

variable {clock : Clock} {allowed : Option UInt64} {machine : Machine} {task : Task}

/-- Two limits that both allow a step give the same step. -/
theorem step_eq_of_le {other : Option UInt64}
    (free : Meter.refusal ⟨allowed, none⟩ clock (Meter.next machine.steps) = none)
    (within : ∀ limit ∈ other, Meter.next machine.steps ≤ limit.toNat) :
    machine.step ⟨other, none⟩ clock task = machine.step ⟨allowed, none⟩ clock task := by
  rw [step_of_allowed free, step_of_allowed (Meter.refusal_of_le within)]

/-- A failure that is not about the budget is that of a step that was allowed. -/
theorem allowed_of_error {after : Machine} {fault : Fault} (other : fault.code ≠ .budget)
    (h : machine.step ⟨allowed, none⟩ clock task = (after, .error fault)) :
    Meter.refusal ⟨allowed, none⟩ clock (Meter.next machine.steps) = none := by
  cases refused : Meter.refusal ⟨allowed, none⟩ clock (Meter.next machine.steps) with
  | none => rfl
  | some cause =>
      rw [step_of_refusal refused] at h
      cases h
      exact absurd (Meter.code_of_refusal refused) other

/-- The count after a step, as long as it can be counted. -/
theorem steps_of_step {limits : Limits} {after : Machine} {result : Except Fault (List Task)}
    (h : machine.step limits clock task = (after, result)) (room : machine.steps < Meter.maxCount) :
    after.steps = machine.steps + 1 :=
  (step_steps h).trans (Meter.next_eq room)

end Lockstep

namespace Execution

variable {clock : Clock} {allowed : Option UInt64} {tasks charged : List Task}
variable {machine after : Machine} {fault : Option Fault}

/-- The count of the machine is exact as long as the charges can be counted. -/
theorem steps_eq {limits : Limits}
    (h : Execution limits clock tasks machine charged after fault)
    (countable : machine.steps + charged.length ≤ Meter.maxCount) :
    after.steps = machine.steps + charged.length := by
  induction h with
  | done machine => rfl
  | failed stepped => exact steps_of_step stepped countable
  | @step task rest machine next tasks charged after fault stepped _ ih =>
      rw [List.length_cons] at countable ⊢
      have count := steps_of_step stepped (by omega)
      rw [ih (by omega)]
      omega

/-- Every limit that allows all charges of an execution has the same execution. -/
theorem relimit (h : Execution ⟨allowed, none⟩ clock tasks machine charged after fault)
    (ends : ∀ reason ∈ fault, reason.code ≠ .budget)
    (countable : machine.steps + charged.length ≤ Meter.maxCount) {other : Option UInt64}
    (within : ∀ limit ∈ other, machine.steps + charged.length ≤ limit.toNat) :
    Execution ⟨other, none⟩ clock tasks machine charged after fault := by
  induction h with
  | done => exact .done _
  | @failed task rest machine after fault stepped =>
      simp only [List.length_singleton] at countable within
      have free := allowed_of_error (ends fault rfl) stepped
      refine .failed ((step_eq_of_le free ?_).trans stepped)
      rwa [Meter.next_eq countable]
  | @step task rest machine next tasks charged after fault stepped _ ih =>
      simp only [List.length_cons] at countable within
      have room : machine.steps < Meter.maxCount := by omega
      have count := steps_of_step stepped room
      refine .step ((step_eq_of_le (step_eq_ok stepped).1 ?_).trans stepped) (ih ends ?_ ?_)
      · intro limit h
        have := within limit h
        rw [Meter.next_eq room]
        omega
      · omega
      · intro limit h
        have := within limit h
        omega

/-- A limit that allows only the first `passed` charges stops the execution at the next one. -/
theorem cut_off (h : Execution ⟨allowed, none⟩ clock tasks machine charged after fault)
    (ends : ∀ reason ∈ fault, reason.code ≠ .budget)
    (countable : machine.steps + charged.length ≤ Meter.maxCount) {limit : UInt64} {passed : Nat}
    (spent : machine.steps + passed = limit.toNat) (short : passed < charged.length) :
    ∃ stopped, Execution ⟨some limit, none⟩ clock tasks machine (charged.take (passed + 1)) stopped
      (some ⟨.stepLimit limit, charged[passed].pos⟩) := by
  induction h generalizing passed with
  | done => simp at short
  | @failed task rest machine after fault stepped =>
      simp only [List.length_singleton] at countable short
      obtain rfl : passed = 0 := by omega
      exact ⟨_, .failed (step_of_refusal (Meter.refusal_of_lt rfl
        (by rw [Meter.next_eq countable]; omega)))⟩
  | @step task rest machine next tasks charged after fault stepped _ ih =>
      simp only [List.length_cons] at countable short
      have room : machine.steps < Meter.maxCount := by omega
      have count := steps_of_step stepped room
      cases passed with
      | zero =>
          exact ⟨_, .failed (step_of_refusal (Meter.refusal_of_lt rfl
            (by rw [Meter.next_eq room]; omega)))⟩
      | succ passed =>
          have left : next.steps + passed = limit.toNat := by omega
          obtain ⟨stopped, execution⟩ := ih ends (by omega) left (by omega)
          refine ⟨stopped, .step ((step_eq_of_le (step_eq_ok stepped).1 ?_).trans stepped)
            execution⟩
          intro bound h
          cases h
          rw [Meter.next_eq room]
          omega

end Execution

/-- Every line printed and every variable that has a value has cost a step. -/
structure Paid (machine : Machine) : Prop where
  lines : machine.printed.length ≤ machine.steps
  stored : machine.store.size ≤ machine.steps

theorem paid_initial : Paid initial := by
  exact ⟨Nat.le_refl 0, Nat.le_refl 0⟩

/-- A step that succeeds keeps everything paid, as long as it can be counted. -/
theorem Paid.step {limits : Limits} {clock : Clock} {machine after : Machine} {task : Task}
    {tasks : List Task} (paid : Paid machine) (room : machine.steps < Meter.maxCount)
    (h : machine.step limits clock task = (after, .ok tasks)) : Paid after := by
  have count : machine.tick.steps = machine.steps + 1 := Meter.next_eq room
  have lines := paid.lines
  have stored := paid.stored
  obtain rfl | ⟨line, rfl⟩ | ⟨name, value, rfl⟩ := perform_cases (step_eq_ok h).2
  · exact ⟨by rw [count, tick_printed]; omega, by rw [count, tick_store]; omega⟩
  · refine ⟨?_, ?_⟩
    · simp only [print, tick_printed, List.length_cons, count]
      omega
    · simp only [print, tick_store, count]
      omega
  · refine ⟨?_, ?_⟩
    · simp only [set, tick_printed, count]
      omega
    · have := Std.TreeMap.size_insert_le (t := machine.store.table) (k := name) (v := value)
      simp only [set, tick_store, count, Store.set, Store.size] at *
      omega

/-- Under a finite step limit every list of tasks comes to an end. What is left of the limit
decreases with every step that is allowed. -/
theorem exists_execution {limits : Limits} {limit : UInt64} (clock : Clock)
    (limited : limits.maxSteps = some limit) (finite : limit.toNat < Meter.maxCount)
    (tasks : List Task) (machine : Machine) (reached : machine.steps ≤ limit.toNat)
    (paid : Paid machine) :
    ∃ charged after fault, Execution limits clock tasks machine charged after fault ∧
      after.steps = machine.steps + charged.length ∧ after.steps ≤ limit.toNat + 1 ∧
      after.printed.length ≤ limit.toNat ∧ after.store.size ≤ limit.toNat := by
  induction left : limit.toNat - machine.steps using Nat.strongRecOn
    generalizing tasks machine with
  | ind n ih =>
      have lines := paid.lines
      have stored := paid.stored
      have room : machine.steps < Meter.maxCount := by omega
      cases tasks with
      | nil => exact ⟨_, _, _, .done machine, rfl, by omega, by omega, by omega⟩
      | cons task rest =>
          match stepped : machine.step limits clock task with
          | (after, .error fault) =>
              have count := steps_of_step stepped room
              refine ⟨_, _, _, .failed stepped, count, by omega, ?_, ?_⟩
              · rw [step_eq_error stepped, tick_printed]
                omega
              · rw [step_eq_error stepped, tick_store]
                omega
          | (next, .ok tasks) =>
              have count := steps_of_step stepped room
              have within : machine.steps + 1 ≤ limit.toNat := by
                refine Nat.le_of_not_lt fun past => ?_
                have refused : Meter.refusal limits clock (machine.steps + 1) = _ :=
                  Meter.refusal_of_lt limited (by omega)
                rw [← Meter.next_eq room, (step_eq_ok stepped).1] at refused
                cases refused
              obtain ⟨charged, after, fault, execution, total, bounds⟩ :=
                ih (limit.toNat - next.steps) (by omega) (tasks ++ rest) next (by omega)
                  (paid.step room stepped) rfl
              refine ⟨_, _, _, .step stepped execution, ?_, bounds⟩
              rw [total, count, List.length_cons]
              omega

end Machine

/-- Without a time limit a run does not depend on the clock. -/
theorem run_untimed {config : Config} {clock : Clock} (untimed : config.limits.timeoutMs = none)
    (text : String) : run config clock text = run config .still text := by
  simp only [run, Source.run, Machine.runBlock, Machine.runTasks, Machine.exec_untimed untimed]

/-- The outcome of a run without fuel is what `run` computes, unless the run makes more charges than
can be counted. -/
theorem Source.Runs.run_eq {config : Config} {clock : Clock} {source : Source}
    {charged : List Task} {after : Machine} {outcome : Outcome}
    (runs : source.Runs config clock charged after outcome)
    (countable : charged.length ≤ UInt64.size) : source.run config clock = outcome := by
  cases runs with
  | refused refused => exact run_of_refused refused
  | @executed program charged after fault read execution =>
      refine run_of_execution config read execution ?_
      have top : Meter.maxCount + 1 = UInt64.size := rfl
      cases limited : config.limits.maxSteps with
      | none =>
          simp only [Machine.fuelFor, limited, Option.elim_none]
          omega
      | some limit =>
          simp only [Machine.fuelFor, limited, Option.elim_some]
          by_cases finite : limit.toNat < Meter.maxCount
          · obtain ⟨charged', after', fault', bounded, total, bound, -⟩ :=
              Machine.exists_execution clock limited finite (Task.ofBlock program.body) .initial
                (Nat.zero_le _) Machine.paid_initial
            obtain ⟨rfl, -, -⟩ := execution.deterministic bounded
            have none_before : Machine.initial.steps = 0 := rfl
            omega
          · omega

/-- Under a step limit below the largest count, what `run` computes is the outcome of a run without
fuel. -/
theorem Source.exists_runs (config : Config) (clock : Clock) (source : Source) {limit : UInt64}
    (limited : config.limits.maxSteps = some limit) (finite : limit.toNat < Meter.maxCount) :
    ∃ charged after, source.Runs config clock charged after (source.run config clock) := by
  cases read : Program.ofSource config.entry source with
  | error fault =>
      refine ⟨[], .initial, ?_⟩
      rw [run_of_refused read]
      exact .refused read
  | ok program =>
      obtain ⟨charged, after, fault, execution, total, bound, -⟩ :=
        Machine.exists_execution clock limited finite (Task.ofBlock program.body) .initial
          (Nat.zero_le _) Machine.paid_initial
      have runs : source.Runs config clock charged after _ := .executed read execution
      have none_before : Machine.initial.steps = 0 := rfl
      have top : Meter.maxCount + 1 = UInt64.size := rfl
      refine ⟨charged, after, ?_⟩
      rw [runs.run_eq (by omega)]
      exact runs

/-- A run without a time limit that is not stopped by its step limit is the same run under every
limit that allows all of its charges, and under no limit. A smaller limit stops it at the start of
the line of the first charge that the limit does not allow. -/
theorem run_stepLimit_threshold (entry : EntryRule) (clock : Clock) (text : String)
    (allowed : Option UInt64)
    (ends : ∀ fault, run ⟨entry, ⟨allowed, none⟩⟩ clock text = .fault fault →
      fault.code ≠ .budget) :
    ∃ charged after,
      (Source.ofText text).Runs ⟨entry, ⟨allowed, none⟩⟩ clock charged after
        (run ⟨entry, ⟨allowed, none⟩⟩ clock text) ∧
      (charged.length < UInt64.size →
        (∀ other : Option UInt64, (∀ limit ∈ other, charged.length ≤ limit.toNat) →
          run ⟨entry, ⟨other, none⟩⟩ clock text = run ⟨entry, ⟨allowed, none⟩⟩ clock text) ∧
        ∀ (limit : UInt64) (short : limit.toNat < charged.length),
          run ⟨entry, ⟨some limit, none⟩⟩ clock text =
            .fault ⟨.stepLimit limit, ⟨charged[limit.toNat].line, 0⟩⟩) := by
  obtain ⟨charged, after, runs⟩ | ⟨fault, stopped, budget⟩ :=
    Source.runs_or_budget ⟨entry, ⟨allowed, none⟩⟩ clock (.ofText text)
  · refine ⟨charged, after, runs, fun few => ?_⟩
    generalize result : (Source.ofText text).run ⟨entry, ⟨allowed, none⟩⟩ clock = outcome at runs
    rw [run, result]
    cases runs with
    | refused refused =>
        refine ⟨fun other _ => Source.run_of_refused refused, fun limit short => ?_⟩
        simp at short
    | @executed program charged after fault read execution =>
        have other_fault : ∀ reason ∈ fault, reason.code ≠ .budget := by
          rintro reason rfl
          exact ends reason result
        have countable : Machine.initial.steps + charged.length ≤ Meter.maxCount := by
          simp only [Machine.initial, Meter.maxCount]
          omega
        refine ⟨fun other within => ?_, fun limit short => ?_⟩
        · refine Source.run_of_execution ⟨entry, ⟨other, none⟩⟩ read
            (execution.relimit other_fault countable fun limit h => ?_) ?_
          · simpa [Machine.initial] using within limit h
          · cases other with
            | none =>
                simp only [Machine.fuelFor, Option.elim_none, Meter.maxCount]
                omega
            | some limit =>
                have := within limit rfl
                simp only [Machine.fuelFor, Option.elim_some]
                omega
        · obtain ⟨stopped, cut⟩ := execution.cut_off other_fault countable
            (Nat.zero_add limit.toNat) short
          rw [← Task.pos_eq]
          refine Source.run_of_execution ⟨entry, ⟨some limit, none⟩⟩ read cut ?_
          simp only [Machine.fuelFor, Option.elim_some, List.length_take]
          omega
  · exact absurd budget (ends fault stopped)

/-- A loop of two rounds between two other lines makes eight charges, so seven are one too few. -/
theorem run_stepLimit_threshold_loop :
    let text := "var i = 0;\nwhile i < 2 \x7b\n  i = i + 1;\n\x7d\nprint \"i=\" + i;"
    (∀ fault, run ⟨.wholeSource, ⟨some 10, none⟩⟩ .still text = .fault fault →
      fault.code ≠ .budget) ∧
    ∃ charged after,
      (Source.ofText text).Runs ⟨.wholeSource, ⟨some 10, none⟩⟩ .still charged after
        (run ⟨.wholeSource, ⟨some 10, none⟩⟩ .still text) ∧
      (charged.length < UInt64.size →
        (∀ other : Option UInt64, (∀ limit ∈ other, charged.length ≤ limit.toNat) →
          run ⟨.wholeSource, ⟨other, none⟩⟩ .still text =
            run ⟨.wholeSource, ⟨some 10, none⟩⟩ .still text) ∧
        ∀ (limit : UInt64) (short : limit.toNat < charged.length),
          run ⟨.wholeSource, ⟨some limit, none⟩⟩ .still text =
            .fault ⟨.stepLimit limit, ⟨charged[limit.toNat].line, 0⟩⟩) := by
  intro text
  have prints : run ⟨.wholeSource, ⟨some 10, none⟩⟩ .still text = .output ["i=2"] := by
    decide +kernel
  have ends : ∀ fault, run ⟨.wholeSource, ⟨some 10, none⟩⟩ .still text = .fault fault →
      fault.code ≠ .budget := by
    intro fault failed
    cases prints.symm.trans failed
  exact ⟨ends, run_stepLimit_threshold .wholeSource .still text (some 10) ends⟩

/-- Under a step limit below the largest count every run comes to an end, whatever the time limit
and the clock are: after at most one charge more than the limit, with at most as many lines printed
and as many variables in use as the limit allows steps. -/
theorem run_ends_within_stepLimit (config : Config) (clock : Clock) (text : String)
    (limit : UInt64) (limited : config.limits.maxSteps = some limit)
    (finite : limit.toNat < UInt64.size - 1) :
    ∃ charged after,
      (Source.ofText text).Runs config clock charged after (run config clock text) ∧
      charged.length ≤ limit.toNat + 1 ∧ after.steps = charged.length ∧
      after.output.length ≤ limit.toNat ∧ after.store.size ≤ limit.toNat := by
  cases read : Program.ofSource config.entry (.ofText text) with
  | error fault =>
      refine ⟨[], .initial, ?_, by simp, rfl, by simp [Machine.output, Machine.initial], ?_⟩
      · rw [run, Source.run_of_refused read]
        exact .refused read
      · exact Nat.zero_le _
  | ok program =>
      obtain ⟨charged, after, fault, execution, total, bound, lines, stored⟩ :=
        Machine.exists_execution clock limited finite (Task.ofBlock program.body) .initial
          (Nat.zero_le _) Machine.paid_initial
      have count : after.steps = charged.length := by simpa [Machine.initial] using total
      have few : charged.length ≤ limit.toNat + 1 := count ▸ bound
      refine ⟨charged, after, ?_, few, count, by simpa [Machine.output] using lines, stored⟩
      have enough : charged.length ≤ Machine.fuelFor config.limits 0 := by
        simpa [Machine.fuelFor, limited] using few
      rw [run, Source.run_of_execution config read execution enough]
      exact .executed read execution

/-- An empty loop whose guard never changes, under both kinds of limit. -/
theorem run_ends_within_stepLimit_empty_loop :
    let config : Config := ⟨.wholeSource, ⟨some 5000, some 0⟩⟩
    let text := "var i = 0;\nwhile i < 1 \x7b\n\x7d"
    config.limits.maxSteps = some 5000 ∧ (5000 : UInt64).toNat < UInt64.size - 1 ∧
    ∃ charged after,
      (Source.ofText text).Runs config .still charged after (run config .still text) ∧
      charged.length ≤ (5000 : UInt64).toNat + 1 ∧ after.steps = charged.length ∧
      after.output.length ≤ (5000 : UInt64).toNat ∧
      after.store.size ≤ (5000 : UInt64).toNat := by
  intro config text
  exact ⟨rfl, by decide,
    run_ends_within_stepLimit config .still text 5000 rfl (by decide)⟩

end LineScript
