import LineScript.Run

/-!
# The queue of runs

Jobs are run one at a time, in the order in which they were handed in. Handing in a job gives a
ticket, and the outcome of the job waits under that ticket until it is taken. Whoever holds the
ticket may also give it up, before or after the job was run; the job is run all the same.
-/

namespace LineScript

/-- A text to run, with the ticket under which its outcome is expected. -/
structure Job where
  ticket : Nat
  text : String
deriving DecidableEq

/-- What there is under a ticket. -/
inductive Reply where
  | awaited
  | ready (outcome : Outcome)
  /-- The outcome was taken, or the ticket given up. -/
  | closed
deriving DecidableEq

/-- The jobs still to run, and the replies of all tickets given out so far. -/
structure RunQueue where
  jobs : List Job
  replies : Array Reply

namespace RunQueue

/-- A queue to which nothing was handed in. -/
def empty : RunQueue := ⟨[], #[]⟩

/-- What there is under a ticket; a ticket that was never given out is closed. -/
def reply (queue : RunQueue) (ticket : Nat) : Reply :=
  queue.replies[ticket]?.getD .closed

/-- Hands in a text to run. -/
def submit (queue : RunQueue) (text : String) : Nat × RunQueue :=
  let ticket := queue.replies.size
  (ticket, ⟨queue.jobs ++ [⟨ticket, text⟩], queue.replies.push .awaited⟩)

/-- Puts an outcome under a ticket, unless nobody waits for it. -/
def deliver (replies : Array Reply) (ticket : Nat) (outcome : Outcome) : Array Reply :=
  if replies[ticket]? = some .awaited then replies.setIfInBounds ticket (.ready outcome)
  else replies

/-- Runs the first job, if there is one. -/
def runNext (config : Config) (clock : Clock) (queue : RunQueue) : RunQueue :=
  match queue.jobs with
  | [] => queue
  | job :: rest => ⟨rest, deliver queue.replies job.ticket (run config clock job.text)⟩

/-- Runs the first `count` jobs. -/
def runMany (config : Config) (clock : Clock) : Nat → RunQueue → RunQueue
  | 0, queue => queue
  | count + 1, queue => runMany config clock count (queue.runNext config clock)

/-- Gives up a ticket. -/
def discard (queue : RunQueue) (ticket : Nat) : RunQueue :=
  { queue with replies := queue.replies.setIfInBounds ticket .closed }

/-- Whether a ticket has been used up or given up. -/
def isClosed (queue : RunQueue) (ticket : Nat) : Bool :=
  queue.reply ticket = .closed

/-- Waits for the outcome under a ticket and takes it: the jobs up to that one are run. There is
none if the ticket is closed. -/
def receive (config : Config) (clock : Clock) (queue : RunQueue) (ticket : Nat) :
    Option Outcome × RunQueue :=
  let ahead := (queue.jobs.takeWhile fun job => job.ticket ≤ ticket).length
  let after := if queue.isClosed ticket then queue else queue.runMany config clock ahead
  match after.reply ticket with
  | .ready outcome => (some outcome, after.discard ticket)
  | _ => (none, after)

/-- Hands in a text and waits for its outcome. -/
def request (config : Config) (clock : Clock) (queue : RunQueue) (text : String) :
    Option Outcome × RunQueue :=
  let (ticket, after) := queue.submit text
  after.receive config clock ticket

end RunQueue

end LineScript
