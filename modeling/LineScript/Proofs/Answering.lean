import LineScript.Proofs.Worker

/-!
# What a worker does for its clients

A client that gives up its ticket changes nothing for the others. To see this, a worker is compared
with one that has gone through the same events, except that a ticket was given up at some point. The
two stay `Apart` by what lies under that ticket, so that each can follow the other.

The thread is never held up: after each job there is room for the outcome. So left to itself it
empties the queue, and it ends if the worker was let go of. What it does then is what the operations
of `RunQueue` do, which run the jobs on demand: each of them is a sequence of steps of a worker
whose thread is idle.
-/

namespace LineScript

namespace RunQueue

variable {ticket : Nat} {left right : RunQueue}

/-- Two queues that differ at most in what lies under a ticket, which is closed in the second. -/
structure Apart (ticket : Nat) (left right : RunQueue) : Prop where
  jobs : left.jobs = right.jobs
  tickets : left.tickets = right.tickets
  reply : ∀ other, other ≠ ticket → left.reply other = right.reply other
  given : ticket < right.tickets
  closed : right.reply ticket = .closed

namespace Apart

theorem submit (apart : Apart ticket left right) (text : String) :
    Apart ticket (left.submit text).2 (right.submit text).2 where
  jobs := by rw [jobs_submit, jobs_submit, apart.jobs, apart.tickets]
  tickets := by rw [tickets_submit, tickets_submit, apart.tickets]
  reply other different := by
    rw [reply_submit, reply_submit, apart.tickets, apart.reply other different]
  given := by
    rw [tickets_submit]
    exact Nat.lt_succ_of_lt apart.given
  closed := by rw [reply_submit, if_neg (Nat.ne_of_lt apart.given), apart.closed]

theorem withJobs (apart : Apart ticket left right) (rest : List Job) :
    Apart ticket (left.withJobs rest) (right.withJobs rest) :=
  { apart with jobs := rfl }

theorem answer (apart : Apart ticket left right) (mine : Nat) (outcome : Outcome) :
    Apart ticket (left.answer mine outcome) (right.answer mine outcome) where
  jobs := apart.jobs
  tickets := by rw [tickets_answer, tickets_answer, apart.tickets]
  reply other different := by
    rw [reply_answer, reply_answer, apart.reply other different]
    by_cases same : other = mine
    · rw [← same, apart.reply other different]
    · simp [same]
  given := by
    rw [tickets_answer]
    exact apart.given
  closed := by
    have settled : ¬(ticket = mine ∧ right.reply mine = .awaited) := by
      rintro ⟨rfl, waits⟩
      rw [apart.closed] at waits
      nomatch waits
    rw [reply_answer, if_neg settled, apart.closed]

theorem discard (apart : Apart ticket left right) (mine : Nat) :
    Apart ticket (left.discard mine) (right.discard mine) where
  jobs := apart.jobs
  tickets := by rw [tickets_discard, tickets_discard, apart.tickets]
  reply other different := by rw [reply_discard, reply_discard, apart.reply other different]
  given := by
    rw [tickets_discard]
    exact apart.given
  closed := by
    rw [reply_discard, apart.closed, ite_self]

/-- Giving up a ticket sets a queue apart from what it was. -/
theorem of_discard (given : ticket < left.tickets) : Apart ticket left (left.discard ticket) where
  jobs := rfl
  tickets := (tickets_discard ticket).symm
  reply other different := by rw [reply_discard, if_neg different]
  given := by rwa [tickets_discard]
  closed := by rw [reply_discard, if_pos rfl]

/-- Where there was room, there is room. -/
theorem hasRoom (apart : Apart ticket left right) {mine : Nat} (room : left.HasRoom mine) :
    right.HasRoom mine := by
  intro outcome
  by_cases same : mine = ticket
  · rw [same, apart.closed]
    nofun
  · rw [← apart.reply mine same]
    exact room outcome

end Apart

/-! ### Running jobs on demand -/

variable {config : Config} {clock : Clock} {queue : RunQueue} {job : Job} {rest front : List Job}

theorem runNext_of_cons (next : queue.jobs = job :: rest) :
    queue.runNext config clock =
      (queue.withJobs rest).answer job.ticket (run config clock job.text) := by
  rw [runNext, next]
  rfl

theorem runNext_of_nil (empty : queue.jobs = []) : queue.runNext config clock = queue := by
  rw [runNext, empty]

@[simp] theorem jobs_runNext : (queue.runNext config clock).jobs = queue.jobs.tail := by
  cases next : queue.jobs with
  | nil => rw [runNext_of_nil next, next, List.tail_nil]
  | cons job rest => rw [runNext_of_cons next, jobs_answer, jobs_withJobs, List.tail_cons]

@[simp] theorem jobs_runMany (count : Nat) :
    (queue.runMany config clock count).jobs = queue.jobs.drop count := by
  induction count generalizing queue with
  | zero => rfl
  | succ count ih => rw [runMany, ih, jobs_runNext, List.drop_tail]

/-- When the jobs up to one that is waited for are run, its outcome is there. -/
theorem reply_runMany {text : String} (jobs : queue.jobs = front ++ [⟨ticket, text⟩])
    (others : ∀ job ∈ front, job.ticket ≠ ticket) (waits : queue.reply ticket = .awaited) :
    (queue.runMany config clock (front.length + 1)).reply ticket =
      .ready (run config clock text) := by
  induction front generalizing queue with
  | nil =>
      rw [List.length_nil, runMany, runMany, runNext_of_cons jobs, reply_answer,
        if_pos ⟨rfl, waits⟩]
  | cons job front ih =>
      have different : ticket ≠ job.ticket := (others job List.mem_cons_self).symm
      rw [List.length_cons, runMany]
      refine ih ?_ (fun other there => others other (List.mem_cons_of_mem _ there)) ?_
      · rw [jobs_runNext, jobs]
        rfl
      · rw [runNext_of_cons jobs, reply_answer, if_neg fun both => different both.1, reply_withJobs,
          waits]

/-- Waiting for the last job handed in gives its outcome. -/
theorem receive_last {text : String} (jobs : queue.jobs = front ++ [⟨ticket, text⟩])
    (earlier : ∀ job ∈ front, job.ticket < ticket) (waits : queue.reply ticket = .awaited) :
    (queue.receive config clock ticket).1 = some (run config clock text) := by
  have all : queue.jobs.takeWhile (fun job => decide (job.ticket ≤ ticket)) = queue.jobs := by
    rw [jobs, List.takeWhile_append_of_pos fun job there =>
      decide_eq_true (Nat.le_of_lt (earlier job there))]
    simp
  have outcome : (queue.runMany config clock queue.jobs.length).reply ticket =
      .ready (run config clock text) := by
    rw [jobs, List.length_append]
    exact reply_runMany jobs (fun job there => Nat.ne_of_lt (earlier job there)) waits
  simp [receive, isClosed, all, waits, outcome]

end RunQueue

namespace Worker

variable {config : Config} {past events : List Event} {ticket : Nat} {event : Event}
  {worker left right left' right' : Worker}

/-- Two workers that differ at most in what lies under a ticket, which is closed in the second. -/
structure Apart (ticket : Nat) (left right : Worker) : Prop where
  queue : left.queue.Apart ticket right.queue
  thread : left.thread = right.thread
  isHeld : left.isHeld = right.isHeld

namespace Apart

/-- What happens to a worker can happen to one in which a ticket was given up, unless it is that the
outcome is taken. -/
theorem step (apart : Apart ticket left right) (step : Step config left event left')
    (untaken : ∀ outcome, event ≠ .received ticket outcome) :
    ∃ right', Step config right event right' ∧ Apart ticket left' right' := by
  obtain ⟨queue, thread, isHeld⟩ := apart
  cases step with
  | submit text held there =>
      have handed := @Step.submit config right text (isHeld ▸ held) (thread ▸ there)
      rw [RunQueue.ticket_submit, ← queue.tickets] at handed
      exact ⟨_, handed, queue.submit text, thread, isHeld⟩
  | refuse text held gone =>
      exact ⟨right, .refuse text (isHeld ▸ held) (thread ▸ gone), queue, thread, isHeld⟩
  | start idle next =>
      exact ⟨_, .start (thread ▸ idle) (queue.jobs ▸ next), queue.withJobs _, rfl, isHeld⟩
  | answer clock running room =>
      exact ⟨_, .answer clock (thread ▸ running) (queue.hasRoom room), queue.answer _ _, rfl,
        isHeld⟩
  | @receive other outcome there =>
      have different : other ≠ ticket := fun same => untaken outcome (same ▸ rfl)
      exact ⟨_, .receive (queue.reply other different ▸ there), queue.discard _, thread, isHeld⟩
  | drop given =>
      exact ⟨_, .drop (queue.tickets ▸ given), queue.discard _, thread, isHeld⟩
  | release held => exact ⟨_, .release (isHeld ▸ held), queue, thread, rfl⟩
  | stop idle empty alone =>
      exact ⟨_, .stop (thread ▸ idle) (queue.jobs ▸ empty) (isHeld ▸ alone), queue, rfl, isHeld⟩

/-- What happens to a worker in which a ticket was given up can happen to one in which it was not,
as long as there is room for every outcome. -/
theorem step_back (apart : Apart ticket left right) (step : Step config right event right')
    (room : ∀ job, left.thread = .running job → left.queue.HasRoom job.ticket) :
    ∃ left', Step config left event left' ∧ Apart ticket left' right' := by
  obtain ⟨queue, thread, isHeld⟩ := apart
  cases step with
  | submit text held there =>
      have handed := @Step.submit config left text (isHeld ▸ held) (thread ▸ there)
      rw [RunQueue.ticket_submit, queue.tickets] at handed
      exact ⟨_, handed, queue.submit text, thread, isHeld⟩
  | refuse text held gone =>
      exact ⟨left, .refuse text (isHeld ▸ held) (thread ▸ gone), queue, thread, isHeld⟩
  | start idle next =>
      exact ⟨_, .start (thread ▸ idle) (queue.jobs ▸ next), queue.withJobs _, rfl, isHeld⟩
  | answer clock running =>
      have running := thread.trans running
      exact ⟨_, .answer clock running (room _ running), queue.answer _ _, rfl, isHeld⟩
  | @receive other outcome there =>
      have different : other ≠ ticket := by
        rintro rfl
        rw [queue.closed] at there
        nomatch there
      exact ⟨_, .receive (queue.reply other different ▸ there), queue.discard _, thread, isHeld⟩
  | drop given =>
      exact ⟨_, .drop (queue.tickets ▸ given), queue.discard _, thread, isHeld⟩
  | release held => exact ⟨_, .release (isHeld ▸ held), queue, thread, rfl⟩
  | stop idle empty alone =>
      exact ⟨_, .stop (thread ▸ idle) (queue.jobs ▸ empty) (isHeld ▸ alone), queue, rfl, isHeld⟩

theorem steps (apart : Apart ticket left right) (steps : Steps config left events left')
    (untaken : ∀ outcome, .received ticket outcome ∉ events) :
    ∃ right', Steps config right events right' ∧ Apart ticket left' right' := by
  induction steps generalizing right with
  | nil => exact ⟨right, .nil right, apart⟩
  | cons step _ ih =>
      obtain ⟨middle, first, between⟩ := apart.step step fun outcome now =>
        untaken outcome (now ▸ List.mem_cons_self)
      obtain ⟨last, rest, after⟩ := ih between fun outcome later =>
        untaken outcome (List.mem_cons_of_mem _ later)
      exact ⟨last, .cons first rest, after⟩

theorem steps_back (apart : Apart ticket left right) (accounted : Accounted config past left)
    (steps : Steps config right events right') :
    ∃ left', Steps config left events left' ∧ Apart ticket left' right' := by
  induction steps generalizing left past with
  | nil => exact ⟨left, .nil left, apart⟩
  | cons step _ ih =>
      obtain ⟨middle, first, between⟩ := apart.step_back step fun _ running =>
        accounted.replied.hasRoom accounted.queued running
      obtain ⟨last, rest, after⟩ := ih between (accounted.step first)
      exact ⟨last, .cons first rest, after⟩

end Apart

/-- Giving up a ticket sets a worker apart from what it was. -/
theorem apart_discard (given : ticket < worker.queue.tickets) :
    Apart ticket worker { worker with queue := worker.queue.discard ticket } :=
  ⟨.of_discard given, rfl, rfl⟩

/-! ## The thread left to itself -/

/-- Running the first job on demand is what an idle thread does next. -/
theorem Accounted.runNext (accounted : Accounted config past worker)
    (idle : worker.thread = .idle) (clock : Clock) :
    ∃ events, (∀ event ∈ events, event.OfThread clock) ∧
      Steps config worker events { worker with queue := worker.queue.runNext config clock } := by
  cases next : worker.queue.jobs with
  | nil =>
      rw [RunQueue.runNext_of_nil next]
      exact ⟨[], nofun, .nil worker⟩
  | cons job rest =>
      have start : Step config worker (.started job) _ := .start idle next
      have started := accounted.step start
      have answer : Step config _ (.answered job clock _) _ :=
        .answer clock rfl (started.replied.hasRoom started.queued rfl)
      rw [RunQueue.runNext_of_cons next, idle]
      refine ⟨[.started job, .answered job clock (run config clock job.text)], ?_,
        .cons start (.single answer)⟩
      simp [Event.OfThread]

theorem Accounted.runMany (accounted : Accounted config past worker)
    (idle : worker.thread = .idle) (clock : Clock) (count : Nat) :
    ∃ events, (∀ event ∈ events, event.OfThread clock) ∧
      Steps config worker events
        { worker with queue := worker.queue.runMany config clock count } := by
  induction count generalizing worker past with
  | zero => exact ⟨[], nofun, .nil worker⟩
  | succ count ih =>
      obtain ⟨front, first, before⟩ := accounted.runNext idle clock
      obtain ⟨back, second, after⟩ := ih (accounted.steps before) idle
      refine ⟨front ++ back, fun event there => ?_, before.append after⟩
      exact (List.mem_append.mp there).elim (first event) (second event)

/-- Waiting for the outcome under a ticket is letting the thread run and then taking it. -/
theorem Accounted.receive (accounted : Accounted config past worker)
    (idle : worker.thread = .idle) (clock : Clock) (ticket : Nat) :
    ∃ events, Steps config worker events
      { worker with queue := (worker.queue.receive config clock ticket).2 } := by
  rw [RunQueue.receive]
  generalize (worker.queue.jobs.takeWhile fun job => decide (job.ticket ≤ ticket)).length = ahead
  obtain ⟨events, -, steps⟩ := accounted.runMany idle clock ahead
  cases gone : worker.queue.isClosed ticket with
  | true =>
      have closed : worker.queue.reply ticket = .closed := of_decide_eq_true gone
      simp only [if_true, closed]
      exact ⟨[], .nil worker⟩
  | false =>
      simp only [Bool.false_eq_true, if_false]
      cases under : (worker.queue.runMany config clock ahead).reply ticket with
      | awaited => exact ⟨events, steps⟩
      | closed => exact ⟨events, steps⟩
      | ready outcome =>
          have receive : Step config
              { worker with queue := worker.queue.runMany config clock ahead }
              (.received ticket outcome) _ := .receive under
          exact ⟨_, steps.append (.single receive)⟩

/-- A worker that was let go of ends when its thread is left to itself. -/
theorem Accounted.finishes (accounted : Accounted config past worker)
    (alone : worker.isHeld = false) (clock : Clock) :
    ∃ events last, (∀ event ∈ events, event.OfThread clock) ∧
      Steps config worker events last ∧ last.thread = .ended := by
  have fromIdle {past worker} (accounted : Accounted config past worker)
      (alone : worker.isHeld = false) (idle : worker.thread = .idle) :
      ∃ events last, (∀ event ∈ events, event.OfThread clock) ∧
        Steps config worker events last ∧ last.thread = .ended := by
    let emptied := worker.queue.runMany config clock worker.queue.jobs.length
    have empty : emptied.jobs = [] := by rw [RunQueue.jobs_runMany, List.drop_length]
    obtain ⟨events, ofThread, steps⟩ :=
      accounted.runMany idle clock worker.queue.jobs.length
    have stop : Step config { worker with queue := emptied } .stopped _ :=
      .stop idle empty alone
    refine ⟨events ++ [.stopped], _, fun event there => ?_, steps.append (.single stop), rfl⟩
    rcases List.mem_append.mp there with before | last
    · exact ofThread event before
    · cases List.mem_singleton.mp last
      trivial
  cases doing : worker.thread with
  | ended => exact ⟨[], worker, nofun, .nil worker, doing⟩
  | idle => exact fromIdle accounted alone doing
  | running job =>
      have answer : Step config worker (.answered job clock _) _ :=
        .answer clock doing (accounted.replied.hasRoom accounted.queued doing)
      obtain ⟨events, last, ofThread, steps, ended⟩ := fromIdle (accounted.step answer) alone rfl
      refine ⟨_ :: events, last, ?_, .cons answer steps, ended⟩
      exact List.forall_mem_cons.mpr ⟨rfl, ofThread⟩

/-- Who hands in a text and waits for its outcome gets it. -/
theorem Accounted.request (accounted : Accounted config past worker)
    (idle : worker.thread = .idle) (held : worker.isHeld = true) (clock : Clock) (text : String) :
    (worker.queue.request config clock text).1 = some (run config clock text) ∧
      ∃ events, Steps config worker events
        { worker with queue := (worker.queue.request config clock text).2 } := by
  constructor
  · refine RunQueue.receive_last (RunQueue.jobs_submit text) (fun job there => ?_) ?_
    · refine accounted.queued.ticket_lt ?_
      rw [← accounted.queued.waiting]
      exact List.mem_append_right _ there
    · exact (RunQueue.reply_submit text _).trans (if_pos rfl)
  · have submit : Step config worker (.submitted ⟨worker.queue.tickets, text⟩) _ :=
      .submit text held (by simp [idle])
    obtain ⟨events, steps⟩ :=
      (accounted.step submit).receive idle clock worker.queue.tickets
    exact ⟨_, .cons submit steps⟩

/-! ## All that clients can rely on -/

/-- Where a job is among those handed in. -/
theorem Queued.getElem?_ticket (queued : Queued past worker) {job : Job}
    (there : job ∈ submissions past) : (submissions past)[job.ticket]? = some job := by
  obtain ⟨index, found⟩ := List.mem_iff_getElem?.mp there
  have listed : ((submissions past).map Job.ticket)[index]? = some job.ticket := by
    rw [List.getElem?_map, found]
    rfl
  rw [queued.tickets] at listed
  obtain ⟨inside, same⟩ := List.getElem?_eq_some_iff.mp listed
  rw [List.getElem_range] at same
  rw [← same, found]

/-- The jobs handed in are as many as the tickets given out. -/
theorem Queued.length_submissions (queued : Queued past worker) :
    (submissions past).length = worker.queue.tickets := by
  rw [← List.length_map Job.ticket, queued.tickets, List.length_range]

/-- What clients can rely on when `events` have happened to a worker since it was started. -/
structure Reliable (config : Config) (events : List Event) (worker : Worker) : Prop where
  /-- Each job handed in has a ticket of its own, and no text is turned away. -/
  tickets : (submissions events).map Job.ticket = List.range (submissions events).length
  accepted : ∀ text, .refused text ∉ events
  /-- The jobs are run in the order in which they were handed in, one at a time. -/
  order : starts events <+: submissions events
  oneByOne : answers events ++ worker.thread.jobs = starts events
  /-- A job is answered once, with the outcome of its own text. -/
  answeredOnce : ((answers events).map Job.ticket).Nodup
  own : ∀ job clock outcome, .answered job clock outcome ∈ events →
    (submissions events)[job.ticket]? = some job ∧ outcome = run config clock job.text
  /-- Without a time limit the outcome depends on nothing but the text. -/
  untimed : config.limits.timeoutMs = none → ∀ job clock outcome,
    .answered job clock outcome ∈ events → outcome = run config .still job.text
  /-- A ticket yields one outcome at most, and it is that of the job handed in with it. -/
  receivedOnce : (receipts events).Nodup
  received : ∀ ticket outcome, .received ticket outcome ∈ events →
    ∃ job clock, (submissions events)[ticket]? = some job ∧ outcome = run config clock job.text
  /-- An outcome stays where it is until it is taken or given up. -/
  kept : ∀ job clock outcome, .answered job clock outcome ∈ events →
    worker.queue.reply job.ticket = .ready outcome ∨ Closed events job.ticket
  /-- If a client gives up a ticket under which it does not take an outcome any more, all else can
  happen as it did, and there is the same under all other tickets. -/
  dropping : ∀ front back ticket, events = front ++ back → ticket < (submissions front).length →
    (∀ outcome, .received ticket outcome ∉ back) →
    ∃ other, Steps config fresh (front ++ .dropped ticket :: back) other ∧
      Apart ticket worker other
  /-- All that happened could have happened without a ticket being given up. -/
  keeping : ∀ front back ticket, events = front ++ .dropped ticket :: back →
    ∃ other, Steps config fresh (front ++ back) other ∧ Apart ticket other worker
  /-- When the worker was let go of and the thread has ended, every job was run and answered. -/
  complete : .released ∈ events → .stopped ∈ events →
    starts events = submissions events ∧ answers events = submissions events
  /-- The thread ends only when the worker was let go of, and then it does end. -/
  held : .stopped ∈ events → .released ∈ events
  ends : .released ∈ events → ∀ clock, ∃ more last,
    (∀ event ∈ more, event.OfThread clock) ∧ Steps config worker more last ∧
      last.thread = .ended
  /-- Who hands in a text and waits for its outcome gets it. -/
  request : worker.thread = .idle → worker.isHeld = true → ∀ clock text,
    (worker.queue.request config clock text).1 = some (run config clock text) ∧
      ∃ more, Steps config worker more
        { worker with queue := (worker.queue.request config clock text).2 }

/-- A worker loses, duplicates and mixes up nothing, in whatever order clients and thread act. -/
theorem reliable (steps : Steps config fresh events worker) : Reliable config events worker := by
  have accounted := steps.accounted
  have queued := accounted.queued
  have ending := accounted.ending
  have answered_mem {job clock outcome} (there : .answered job clock outcome ∈ events) :
      job ∈ submissions events :=
    queued.answers_prefix.subset (mem_answers.mpr ⟨clock, outcome, there⟩)
  exact {
    tickets := by rw [queued.length_submissions, queued.tickets]
    accepted := ending.accepted
    order := ⟨_, queued.waiting⟩
    oneByOne := queued.current
    answeredOnce := queued.nodup.sublist (queued.answers_prefix.sublist.map Job.ticket)
    own := fun job clock outcome there =>
      ⟨queued.getElem?_ticket (answered_mem there), accounted.own job clock outcome there⟩
    untimed := fun none job clock outcome there => by
      rw [accounted.own job clock outcome there, run_untimed none]
    receivedOnce := accounted.received.once
    received := fun ticket outcome there => by
      obtain ⟨job, clock, answered, rfl⟩ := accounted.received.source ticket outcome there
      exact ⟨job, clock, queued.getElem?_ticket (answered_mem answered),
        accounted.own job clock outcome answered⟩
    kept := accounted.replied.kept
    dropping := fun front back ticket whole given untaken => by
      subst whole
      obtain ⟨middle, before, after⟩ := steps.split
      rw [before.accounted.queued.length_submissions] at given
      obtain ⟨other, rest, apart⟩ := (apart_discard given).steps after untaken
      exact ⟨other, before.append (.cons (.drop given) rest), apart⟩
    keeping := fun front back ticket whole => by
      subst whole
      obtain ⟨middle, before, after⟩ := steps.split
      cases after with
      | cons drop rest =>
          cases drop with
          | drop given =>
              obtain ⟨other, rest, apart⟩ :=
                (apart_discard given).steps_back before.accounted rest
              exact ⟨other, before.append rest, apart⟩
    complete := fun _ stopped => by
      have ended := ending.stopped.mp stopped
      have started := queued.waiting
      have answered := queued.current
      rw [(ending.empty ended).2, List.append_nil] at started
      rw [ended, started] at answered
      exact ⟨started, by simpa [Thread.jobs] using answered⟩
    held := fun stopped => ending.released.mpr (ending.empty (ending.stopped.mp stopped)).1
    ends := fun released clock => accounted.finishes (ending.released.mp released) clock
    request := accounted.request }

/-- Two jobs are handed in, the first ticket is given up while its job runs, and the worker is let
go of while the second job waits. -/
theorem reliable_two_jobs :
    let first : Job := ⟨0, "print \"a\";"⟩
    let second : Job := ⟨1, "print \"b\";"⟩
    let events : List Event := [.submitted first, .submitted second, .started first, .dropped 0,
      .answered first .still (.output ["a"]), .released, .started second,
      .answered second .still (.output ["b"]), .received 1 (.output ["b"]), .stopped]
    ∃ worker, Steps .standard fresh events worker ∧ Reliable .standard events worker := by
  intro first second events
  have ranFirst : run .standard .still first.text = .output ["a"] := by decide +kernel
  have ranSecond : run .standard .still second.text = .output ["b"] := by decide +kernel
  have steps : ∃ worker, Steps .standard fresh events worker := by
    simp only [events, ← ranFirst, ← ranSecond]
    exact ⟨_, .cons (.submit _ rfl nofun) <| .cons (.submit _ rfl nofun) <|
      .cons (.start rfl rfl) <| .cons (.drop (by decide)) <| .cons (.answer _ rfl nofun) <|
      .cons (.release rfl) <| .cons (.start rfl rfl) <| .cons (.answer _ rfl nofun) <|
      .cons (.receive rfl) <| .single (.stop rfl rfl rfl)⟩
  obtain ⟨worker, steps⟩ := steps
  exact ⟨worker, steps, reliable steps⟩

end Worker

end LineScript
