/-!
# Workers

A fixed number of workers, at least one, that take jobs off one queue in order.
Dropping the pool only ends the queue: every job that was queued is still run.
-/

namespace NameDirectory

structure Workers (J : Type) where
  size : Nat
  /-- Jobs that no worker took yet, the first to be taken first. -/
  queue : List J := []
  running : List J := []
  /-- Jobs that were run, the last first. -/
  done : List J := []
  deriving Repr

namespace Workers

variable {J : Type}

def ofSize (n : Nat) : Workers J := { size := max n 1 }

def execute (w : Workers J) (j : J) : Workers J := { w with queue := w.queue ++ [j] }

def take (w : Workers J) : Workers J :=
  match w.queue with
  | j :: queue => if w.running.length < w.size then { w with queue, running := w.running ++ [j] } else w
  | [] => w

def finish (w : Workers J) : Workers J :=
  match w.running with
  | j :: running => { w with running, done := j :: w.done }
  | [] => w

/-- Let the workers go on, each job taken and finished, until nothing is queued or run. -/
def drain (w : Workers J) : Workers J := go (w.queue.length + w.running.length) w
where
  go : Nat → Workers J → Workers J
    | 0, w => w
    | n + 1, w => go n w.take.finish

/-- The jobs that a pool of this size has run when all is done, in the order of finishing. -/
def runAll (size : Nat) (jobs : List J) : List J :=
  (jobs.foldl execute (ofSize size)).drain.done.reverse

end Workers

end NameDirectory
