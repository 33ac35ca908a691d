import LineScript.RunQueue
import LineScript.Proofs.StepLimit

/-!
# A worker and its clients

A worker runs the jobs of a queue one at a time on a thread of its own. Meanwhile its clients hand
in more jobs, take outcomes and give up their tickets, and at some time they let go of the worker.
`Worker.Step` has a rule for each thing that can happen next, so `Worker.Steps` is any order in
which clients and thread can come to act.

What is taken for granted of the queue and of the tickets is in the rules: a job goes to the end of
the queue and is taken from its front, also when the worker was let go of; and an outcome can be put
under a ticket at once if none lies there. That one never lies there when the thread is about to
reply is proved.

`Worker.Accounted` relates the worker at any point to all that has happened so far: which jobs were
handed in, started and answered, and what there must be under each ticket.
-/

namespace LineScript

/-- What the thread of a worker is doing. -/
inductive Thread where
  | idle
  | running (job : Job)
  | ended

/-- The jobs that a thread has taken and not yet answered, of which there is at most one. -/
def Thread.jobs : Thread → List Job
  | .running job => [job]
  | .idle | .ended => []

/-- A worker: its queue with the replies of all tickets, its thread, and whether it is still held by
somebody who can hand in jobs. -/
structure Worker where
  queue : RunQueue
  thread : Thread
  isHeld : Bool

/-! ## Queues -/

namespace RunQueue

variable {queue : RunQueue}

/-- Takes the jobs that are left for all jobs. -/
def withJobs (queue : RunQueue) (jobs : List Job) : RunQueue :=
  { queue with jobs }

/-- Puts an outcome under a ticket, unless nobody waits for it. -/
def answer (queue : RunQueue) (ticket : Nat) (outcome : Outcome) : RunQueue :=
  { queue with replies := deliver queue.replies ticket outcome }

/-- There is no outcome under the ticket yet, so one can be put there without waiting. -/
def HasRoom (queue : RunQueue) (ticket : Nat) : Prop :=
  ∀ outcome, queue.reply ticket ≠ .ready outcome

/-- The tickets given out are the numbers below this one. -/
def tickets (queue : RunQueue) : Nat :=
  queue.replies.size

@[simp] theorem jobs_withJobs (jobs : List Job) : (queue.withJobs jobs).jobs = jobs := rfl

@[simp] theorem reply_withJobs (jobs : List Job) (ticket : Nat) :
    (queue.withJobs jobs).reply ticket = queue.reply ticket := rfl

@[simp] theorem tickets_withJobs (jobs : List Job) :
    (queue.withJobs jobs).tickets = queue.tickets := rfl

@[simp] theorem jobs_answer (ticket : Nat) (outcome : Outcome) :
    (queue.answer ticket outcome).jobs = queue.jobs := rfl

@[simp] theorem tickets_answer (ticket : Nat) (outcome : Outcome) :
    (queue.answer ticket outcome).tickets = queue.tickets := by
  unfold answer deliver tickets
  split
  · exact Array.size_setIfInBounds
  · rfl

@[simp] theorem jobs_discard (ticket : Nat) : (queue.discard ticket).jobs = queue.jobs := rfl

@[simp] theorem tickets_discard (ticket : Nat) :
    (queue.discard ticket).tickets = queue.tickets :=
  Array.size_setIfInBounds

@[simp] theorem ticket_submit (text : String) : (queue.submit text).1 = queue.tickets := rfl

@[simp] theorem jobs_submit (text : String) :
    (queue.submit text).2.jobs = queue.jobs ++ [⟨queue.tickets, text⟩] := rfl

@[simp] theorem tickets_submit (text : String) :
    (queue.submit text).2.tickets = queue.tickets + 1 :=
  Array.size_push _

/-- There is nothing under a ticket that was not given out. -/
theorem reply_of_le {ticket : Nat} (past : queue.tickets ≤ ticket) :
    queue.reply ticket = .closed := by
  rw [reply, Array.getElem?_eq_none past]
  rfl

theorem lt_of_reply {ticket : Nat} (there : queue.reply ticket ≠ .closed) :
    ticket < queue.tickets :=
  Nat.lt_of_not_le fun past => there (reply_of_le past)

theorem reply_submit (text : String) (ticket : Nat) :
    (queue.submit text).2.reply ticket =
      if ticket = queue.tickets then .awaited else queue.reply ticket := by
  have pushed : (queue.submit text).2.reply ticket =
      (if ticket = queue.replies.size then some Reply.awaited
        else queue.replies[ticket]?).getD .closed := by
    rw [← Array.getElem?_push]
    rfl
  rw [pushed]
  by_cases last : ticket = queue.tickets
  · rw [if_pos last, if_pos (show ticket = queue.replies.size from last)]
    rfl
  · rw [if_neg last, if_neg (show ticket ≠ queue.replies.size from last)]
    rfl

theorem reply_discard (ticket other : Nat) :
    (queue.discard ticket).reply other =
      if other = ticket then .closed else queue.reply other := by
  simp only [reply, discard, Array.getElem?_setIfInBounds, eq_comm (a := ticket)]
  split
  · next same =>
    split <;> rfl
  · rfl

theorem reply_answer (ticket other : Nat) (outcome : Outcome) :
    (queue.answer ticket outcome).reply other =
      if other = ticket ∧ queue.reply ticket = .awaited then .ready outcome
      else queue.reply other := by
  have awaited : queue.replies[ticket]? = some .awaited ↔ queue.reply ticket = .awaited := by
    rw [reply]
    cases queue.replies[ticket]? <;> simp
  by_cases waits : queue.reply ticket = .awaited
  · have inside : ticket < queue.replies.size := lt_of_reply (by simp [waits])
    simp only [reply, answer, deliver, awaited.mpr waits, if_true, Array.getElem?_setIfInBounds,
      inside, eq_comm (a := ticket)]
    split
    · next same => simp [same]
    · next different => simp [different]
  · have kept : deliver queue.replies ticket outcome = queue.replies :=
      if_neg fun there => waits (awaited.mp there)
    rw [if_neg fun both => waits both.2, reply, answer, kept, reply]

end RunQueue

namespace Worker

/-- A worker that has just been started. -/
def fresh : Worker := ⟨.empty, .idle, true⟩

/-- What happens in a step. -/
inductive Event where
  /-- A client hands in a job and gets its ticket. -/
  | submitted (job : Job)
  /-- A client cannot hand in a text, because the thread has ended. -/
  | refused (text : String)
  /-- The thread takes a job. -/
  | started (job : Job)
  /-- The thread has run its job, by the given clock, and replies. -/
  | answered (job : Job) (clock : Clock) (outcome : Outcome)
  /-- A client takes the outcome under a ticket. -/
  | received (ticket : Nat) (outcome : Outcome)
  /-- A client gives up a ticket. -/
  | dropped (ticket : Nat)
  /-- The clients let go of the worker. -/
  | released
  /-- The thread ends. -/
  | stopped

/-- The thread acts, and what it runs goes by the given clock. -/
def Event.OfThread (clock : Clock) : Event → Prop
  | .started _ | .stopped => True
  | .answered _ time _ => time = clock
  | _ => False

/-- What can happen to a worker whose runs all have the same configuration. -/
inductive Step (config : Config) : Worker → Event → Worker → Prop where
  | submit {worker} (text) (held : worker.isHeld = true)
      (there : worker.thread ≠ .ended) :
      Step config worker (.submitted ⟨(worker.queue.submit text).1, text⟩)
        { worker with queue := (worker.queue.submit text).2 }
  | refuse {worker} (text) (held : worker.isHeld = true) (gone : worker.thread = .ended) :
      Step config worker (.refused text) worker
  | start {worker job rest} (idle : worker.thread = .idle)
      (next : worker.queue.jobs = job :: rest) :
      Step config worker (.started job)
        { worker with queue := worker.queue.withJobs rest, thread := .running job }
  | answer {worker job} (clock) (running : worker.thread = .running job)
      (room : worker.queue.HasRoom job.ticket) :
      Step config worker (.answered job clock (run config clock job.text))
        { worker with
          queue := worker.queue.answer job.ticket (run config clock job.text), thread := .idle }
  | receive {worker ticket outcome} (there : worker.queue.reply ticket = .ready outcome) :
      Step config worker (.received ticket outcome)
        { worker with queue := worker.queue.discard ticket }
  | drop {worker ticket} (given : ticket < worker.queue.tickets) :
      Step config worker (.dropped ticket) { worker with queue := worker.queue.discard ticket }
  | release {worker} (held : worker.isHeld = true) :
      Step config worker .released { worker with isHeld := false }
  | stop {worker} (idle : worker.thread = .idle) (empty : worker.queue.jobs = [])
      (alone : worker.isHeld = false) :
      Step config worker .stopped { worker with thread := .ended }

/-- Any number of steps, with what happens in them. -/
inductive Steps (config : Config) : Worker → List Event → Worker → Prop where
  | nil (worker) : Steps config worker [] worker
  | cons {worker event next events last} : Step config worker event next →
      Steps config next events last → Steps config worker (event :: events) last

namespace Steps

variable {config : Config} {worker middle last : Worker} {event : Event}
  {events front back : List Event}

theorem single (step : Step config worker event last) : Steps config worker [event] last :=
  .cons step (.nil last)

theorem append (first : Steps config worker front middle) (second : Steps config middle back last) :
    Steps config worker (front ++ back) last := by
  induction first with
  | nil => exact second
  | cons step _ ih => exact .cons step (ih second)

theorem split (steps : Steps config worker (front ++ back) last) :
    ∃ middle, Steps config worker front middle ∧ Steps config middle back last := by
  induction front generalizing worker with
  | nil => exact ⟨worker, .nil worker, steps⟩
  | cons event front ih =>
      cases steps with
      | cons step rest =>
          obtain ⟨middle, first, second⟩ := ih rest
          exact ⟨middle, .cons step first, second⟩

end Steps

/-! ## What has happened -/

/-- The job handed in, if one was. -/
@[simp] def Event.submission : Event → Option Job
  | .submitted job => some job
  | _ => none

/-- The job started, if one was. -/
@[simp] def Event.start : Event → Option Job
  | .started job => some job
  | _ => none

/-- The job answered, if one was. -/
@[simp] def Event.answer : Event → Option Job
  | .answered job _ _ => some job
  | _ => none

/-- The ticket under which an outcome was taken, if one was. -/
@[simp] def Event.receipt : Event → Option Nat
  | .received ticket _ => some ticket
  | _ => none

/-- The jobs handed in, in order. -/
def submissions (events : List Event) : List Job :=
  events.filterMap Event.submission

/-- The jobs started, in order. -/
def starts (events : List Event) : List Job :=
  events.filterMap Event.start

/-- The jobs answered, in order. -/
def answers (events : List Event) : List Job :=
  events.filterMap Event.answer

/-- The tickets under which an outcome was taken, in order. -/
def receipts (events : List Event) : List Nat :=
  events.filterMap Event.receipt

section

variable (past : List Event) (event : Event)

private theorem filterMap_snoc {β : Type} (f : Event → Option β) :
    (past ++ [event]).filterMap f = past.filterMap f ++ (f event).toList := by
  rw [List.filterMap_append]
  cases found : f event <;> simp [found]

@[simp] theorem submissions_snoc :
    submissions (past ++ [event]) = submissions past ++ event.submission.toList :=
  filterMap_snoc past event Event.submission

@[simp] theorem starts_snoc : starts (past ++ [event]) = starts past ++ event.start.toList :=
  filterMap_snoc past event Event.start

@[simp] theorem answers_snoc : answers (past ++ [event]) = answers past ++ event.answer.toList :=
  filterMap_snoc past event Event.answer

@[simp] theorem receipts_snoc :
    receipts (past ++ [event]) = receipts past ++ event.receipt.toList :=
  filterMap_snoc past event Event.receipt

end

theorem mem_answers {past : List Event} {job : Job} :
    job ∈ answers past ↔ ∃ clock outcome, .answered job clock outcome ∈ past := by
  rw [answers, List.mem_filterMap]
  constructor
  · rintro ⟨event, there, found⟩
    cases event <;> cases found
    exact ⟨_, _, there⟩
  · rintro ⟨clock, outcome, there⟩
    exact ⟨_, there, rfl⟩

/-- A ticket was given up, or its outcome taken. -/
def Closed (events : List Event) (ticket : Nat) : Prop :=
  .dropped ticket ∈ events ∨ ticket ∈ receipts events

theorem closed_snoc {past : List Event} {event : Event} {ticket : Nat} :
    Closed (past ++ [event]) ticket ↔
      Closed past ticket ∨ event = .dropped ticket ∨ event.receipt = some ticket := by
  simp only [Closed, receipts_snoc, List.mem_append, List.mem_singleton, Option.mem_toList,
    eq_comm (a := Event.dropped ticket)]
  exact or_or_or_comm

/-- The jobs pass through the queue and the thread in the order in which they were handed in, each
with a ticket of its own. -/
structure Queued (past : List Event) (worker : Worker) : Prop where
  tickets : (submissions past).map Job.ticket = List.range worker.queue.tickets
  waiting : starts past ++ worker.queue.jobs = submissions past
  current : answers past ++ worker.thread.jobs = starts past

/-- What there is under a ticket follows from what has happened to it. -/
structure Replied (past : List Event) (worker : Worker) : Prop where
  closed : ∀ ticket, Closed past ticket ↔
    ticket < worker.queue.tickets ∧ worker.queue.reply ticket = .closed
  ready : ∀ ticket outcome, worker.queue.reply ticket = .ready outcome →
    ∃ job clock, .answered job clock outcome ∈ past ∧ job.ticket = ticket
  kept : ∀ job clock outcome, .answered job clock outcome ∈ past →
    worker.queue.reply job.ticket = .ready outcome ∨ Closed past job.ticket

/-- No ticket yields two outcomes, and what it yields was put there for it. -/
structure Received (past : List Event) : Prop where
  once : (receipts past).Nodup
  source : ∀ ticket outcome, .received ticket outcome ∈ past →
    ∃ job clock, .answered job clock outcome ∈ past ∧ job.ticket = ticket

/-- The thread ends only when the worker was let go of and nothing is left to run. -/
structure Ending (past : List Event) (worker : Worker) : Prop where
  released : .released ∈ past ↔ worker.isHeld = false
  stopped : .stopped ∈ past ↔ worker.thread = .ended
  empty : worker.thread = .ended → worker.isHeld = false ∧ worker.queue.jobs = []
  accepted : ∀ text, .refused text ∉ past

/-- What is true of a worker to which `past` has happened since it was started. -/
structure Accounted (config : Config) (past : List Event) (worker : Worker) : Prop where
  queued : Queued past worker
  replied : Replied past worker
  received : Received past
  ending : Ending past worker
  own : ∀ job clock outcome, .answered job clock outcome ∈ past →
    outcome = run config clock job.text

variable {config : Config} {past : List Event} {worker next : Worker} {event : Event}

theorem Queued.step (queued : Queued past worker) (step : Step config worker event next) :
    Queued (past ++ [event]) next := by
  obtain ⟨tickets, waiting, current⟩ := queued
  cases step with
  | submit text held there =>
      exact ⟨by simp [tickets, List.range_succ], by simp [← waiting], by simp [current]⟩
  | start idle next =>
      rw [idle] at current
      exact ⟨by simp [tickets], by simp [← waiting, next], by simpa [Thread.jobs] using current⟩
  | answer clock running room =>
      rw [running] at current
      exact ⟨by simp [tickets], by simp [waiting], by simpa [Thread.jobs] using current⟩
  | stop idle empty alone =>
      rw [idle] at current
      exact ⟨by simp [tickets], by simp [waiting], by simpa [Thread.jobs] using current⟩
  | refuse | receive | drop | release =>
      exact ⟨by simp [tickets], by simp [waiting], by simp [current]⟩

/-- The tickets of the jobs handed in differ. -/
theorem Queued.nodup (queued : Queued past worker) :
    ((submissions past).map Job.ticket).Nodup := by
  rw [queued.tickets]
  exact List.nodup_range

/-- The ticket of a job handed in was given out. -/
theorem Queued.ticket_lt (queued : Queued past worker) {job : Job}
    (there : job ∈ submissions past) : job.ticket < worker.queue.tickets := by
  have listed : job.ticket ∈ (submissions past).map Job.ticket := List.mem_map_of_mem there
  rw [queued.tickets] at listed
  exact List.mem_range.mp listed

theorem Queued.answers_prefix (queued : Queued past worker) : answers past <+: submissions past :=
  .trans ⟨_, queued.current⟩ ⟨_, queued.waiting⟩

theorem Queued.running_mem (queued : Queued past worker) {job : Job}
    (running : worker.thread = .running job) : job ∈ submissions past := by
  rw [← queued.waiting, ← queued.current, running]
  simp [Thread.jobs]

/-- The job that is running has a ticket other than those answered. -/
theorem Queued.unanswered (queued : Queued past worker) {job : Job}
    (running : worker.thread = .running job) : job.ticket ∉ (answers past).map Job.ticket := by
  have handed : (answers past ++ [job]) ++ worker.queue.jobs = submissions past := by
    rw [← queued.waiting, ← queued.current, running]
    rfl
  have nodup := queued.nodup
  rw [← handed, List.map_append, List.map_append] at nodup
  intro answered
  exact (List.nodup_append.mp (List.nodup_append.mp nodup).1).2.2 _ answered _
    List.mem_cons_self rfl

/-- When the thread is about to reply, nothing lies under the ticket yet. -/
theorem Replied.hasRoom (replied : Replied past worker) (queued : Queued past worker) {job : Job}
    (running : worker.thread = .running job) : worker.queue.HasRoom job.ticket := by
  intro outcome there
  obtain ⟨other, clock, answered, same⟩ := replied.ready _ _ there
  exact queued.unanswered running
    (same ▸ List.mem_map_of_mem (mem_answers.mpr ⟨clock, outcome, answered⟩))

/-- A ticket that is used up or given up is closed from then on. -/
theorem Replied.discard (replied : Replied past worker) {ticket : Nat}
    (given : ticket < worker.queue.tickets)
    (closes : ∀ other, event = .dropped other ∨ event.receipt = some other ↔ other = ticket)
    (silent : event.answer = none) :
    Replied (past ++ [event]) { worker with queue := worker.queue.discard ticket } := by
  have before {job clock outcome} (there : .answered job clock outcome ∈ past ++ [event]) :
      .answered job clock outcome ∈ past := by
    rcases List.mem_append.mp there with before | now
    · exact before
    · cases List.mem_singleton.mp now
      nomatch silent
  refine ⟨fun other => ?_, fun other outcome there => ?_, fun job clock outcome there => ?_⟩
  · rw [closed_snoc, closes, replied.closed, RunQueue.reply_discard, RunQueue.tickets_discard]
    by_cases same : other = ticket
    · simp [same, given]
    · simp [same]
  · rw [RunQueue.reply_discard] at there
    split at there
    · nomatch there
    · obtain ⟨job, clock, answered, same⟩ := replied.ready other outcome there
      exact ⟨job, clock, List.mem_append_left _ answered, same⟩
  · rw [RunQueue.reply_discard, closed_snoc, closes]
    by_cases same : job.ticket = ticket
    · exact .inr (.inr same)
    · rw [if_neg same]
      exact (replied.kept job clock outcome (before there)).imp_right .inl

theorem Replied.step (replied : Replied past worker) (queued : Queued past worker)
    (step : Step config worker event next) : Replied (past ++ [event]) next := by
  obtain ⟨closed, ready, kept⟩ := replied
  cases step with
  | start | refuse | release | stop =>
      refine ⟨fun ticket => ?_, fun ticket outcome there => ?_, fun job clock outcome there => ?_⟩
      · simpa [closed_snoc] using closed ticket
      · simpa using ready ticket outcome there
      · simpa [closed_snoc] using kept job clock outcome (by simpa using there)
  | submit text held there =>
      refine ⟨fun ticket => ?_, fun ticket outcome there => ?_, fun job clock outcome there => ?_⟩
      · rw [closed_snoc, closed, RunQueue.reply_submit, RunQueue.tickets_submit]
        by_cases last : ticket = worker.queue.tickets
        · simp [last]
        · have earlier : ticket < worker.queue.tickets + 1 ↔ ticket < worker.queue.tickets := by
            omega
          simp [last, earlier]
      · rw [RunQueue.reply_submit] at there
        split at there
        · nomatch there
        · simpa using ready ticket outcome there
      · have before : .answered job clock outcome ∈ past := by simpa using there
        have handed := queued.answers_prefix.subset (mem_answers.mpr ⟨_, _, before⟩)
        have earlier : job.ticket ≠ worker.queue.tickets := Nat.ne_of_lt (queued.ticket_lt handed)
        rw [RunQueue.reply_submit, if_neg earlier, closed_snoc]
        exact (kept job clock outcome before).imp_right .inl
  | @answer job clock running room =>
      refine ⟨fun ticket => ?_, fun ticket outcome there => ?_, fun other time outcome there => ?_⟩
      · rw [closed_snoc, closed, RunQueue.reply_answer, RunQueue.tickets_answer]
        by_cases waits : ticket = job.ticket ∧ worker.queue.reply job.ticket = .awaited
        · simp [waits]
        · simp [waits]
      · rw [RunQueue.reply_answer] at there
        split at there
        · next waits =>
          exact ⟨job, clock, by simp [Reply.ready.inj there], waits.1.symm⟩
        · obtain ⟨other, time, before, same⟩ := ready ticket outcome there
          exact ⟨other, time, List.mem_append_left _ before, same⟩
      · rw [RunQueue.reply_answer, closed_snoc]
        rcases List.mem_append.mp there with before | now
        · rcases kept other time outcome before with lies | gone
          · have settled :
                ¬(other.ticket = job.ticket ∧ worker.queue.reply job.ticket = .awaited) := by
              rintro ⟨same, waits⟩
              rw [same, waits] at lies
              nomatch lies
            exact .inl (by rw [if_neg settled, lies])
          · exact .inr (.inl gone)
        · cases List.mem_singleton.mp now
          cases under : worker.queue.reply job.ticket with
          | awaited => exact .inl (by simp)
          | ready outcome => exact absurd under (room outcome)
          | closed =>
              have handed := queued.running_mem running
              exact .inr (.inl ((closed _).mpr ⟨queued.ticket_lt handed, under⟩))
  | @receive ticket outcome there =>
      have given : ticket < worker.queue.tickets := RunQueue.lt_of_reply (by simp [there])
      exact Replied.discard ⟨closed, ready, kept⟩ given (by simp [eq_comm]) (by simp)
  | @drop ticket given =>
      exact Replied.discard ⟨closed, ready, kept⟩ given (by simp [eq_comm]) (by simp)

theorem Received.step (received : Received past) (replied : Replied past worker)
    (step : Step config worker event next) : Received (past ++ [event]) := by
  obtain ⟨once, source⟩ := received
  cases step with
  | @receive ticket outcome there =>
      have new : ticket ∉ receipts past := by
        intro before
        have gone := ((replied.closed ticket).mp (.inr before)).2
        rw [there] at gone
        nomatch gone
      refine ⟨?_, fun other found now => ?_⟩
      · rw [receipts_snoc]
        refine List.nodup_append.mpr ⟨once, List.pairwise_singleton _ _, ?_⟩
        rintro _ before _ now rfl
        exact new (List.mem_singleton.mp now ▸ before)
      · rcases List.mem_append.mp now with before | last
        · obtain ⟨job, clock, answered, same⟩ := source other found before
          exact ⟨job, clock, List.mem_append_left _ answered, same⟩
        · cases List.mem_singleton.mp last
          obtain ⟨job, clock, answered, same⟩ := replied.ready _ _ there
          exact ⟨job, clock, List.mem_append_left _ answered, same⟩
  | submit | refuse | start | answer | drop | release | stop =>
      refine ⟨by simpa using once, fun other found now => ?_⟩
      obtain ⟨job, clock, answered, same⟩ := source other found (by simpa using now)
      exact ⟨job, clock, List.mem_append_left _ answered, same⟩

theorem Ending.step (ending : Ending past worker) (step : Step config worker event next) :
    Ending (past ++ [event]) next := by
  obtain ⟨released, stopped, empty, accepted⟩ := ending
  cases step with
  | submit text held there =>
      exact ⟨by simpa using released, by simpa using stopped, fun ended => absurd ended there,
        by simpa using accepted⟩
  | refuse text held gone =>
      have free := (empty gone).1
      rw [held] at free
      nomatch free
  | start idle next =>
      exact ⟨by simpa using released, by simpa [idle] using stopped, nofun,
        by simpa using accepted⟩
  | answer clock running room =>
      exact ⟨by simpa using released, by simpa [running] using stopped, nofun,
        by simpa using accepted⟩
  | receive | drop =>
      exact ⟨by simpa using released, by simpa using stopped, empty, by simpa using accepted⟩
  | release held =>
      exact ⟨by simp, by simpa using stopped, fun ended => ⟨rfl, (empty ended).2⟩,
        by simpa using accepted⟩
  | stop idle none alone =>
      exact ⟨by simpa using released, by simp, fun _ => ⟨alone, none⟩, by simpa using accepted⟩

theorem Accounted.step (accounted : Accounted config past worker)
    (step : Step config worker event next) : Accounted config (past ++ [event]) next where
  queued := accounted.queued.step step
  replied := accounted.replied.step accounted.queued step
  received := accounted.received.step accounted.replied step
  ending := accounted.ending.step step
  own job clock outcome there := by
    rcases List.mem_append.mp there with before | now
    · exact accounted.own job clock outcome before
    · cases List.mem_singleton.mp now
      cases step with
      | answer clock running room => rfl

/-- Nothing has happened to a worker that has just been started. -/
theorem accounted_fresh : Accounted config [] fresh where
  queued := ⟨rfl, rfl, rfl⟩
  replied :=
    ⟨fun ticket => by simp [Closed, receipts, fresh, RunQueue.tickets, RunQueue.empty],
      fun ticket outcome there => by simp [fresh, RunQueue.reply, RunQueue.empty] at there,
      nofun⟩
  received := ⟨List.nodup_nil, nofun⟩
  ending := ⟨by simp [fresh], by simp [fresh], nofun, nofun⟩
  own := nofun

theorem Accounted.steps (accounted : Accounted config past worker) {events : List Event}
    (steps : Steps config worker events next) : Accounted config (past ++ events) next := by
  induction steps generalizing past with
  | nil => rwa [List.append_nil]
  | @cons worker event middle events last step _ ih =>
      rw [List.append_cons]
      exact ih (accounted.step step)

/-- Whatever clients and thread have done, everything that has happened is accounted for. -/
theorem Steps.accounted {events : List Event} (steps : Steps config fresh events worker) :
    Accounted config events worker :=
  accounted_fresh.steps steps

end Worker

end LineScript
