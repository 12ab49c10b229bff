import StagePipeline.Coordinator

/-!
# Sessions

A session is the calls of one coordinator, one after the other.  A call starts a thread for
every stage, in order, before it takes the first batch.  The system may refuse a thread.
-/

namespace StagePipeline

/-- What a call of a coordinator is given, and what it meets with. -/
structure Call where
  clocks : Clocks
  observer? : Option Observer
  batches : List Batch
  /-- Why the system refuses the thread of the stage at a position, if it does. -/
  refusal? : Nat → Option String

/-- What comes of a call: its answer, how many workers it has started, and what has been
seen of these. -/
structure Response where
  answer : RunAnswer
  workers : Nat
  events : List Run.Event

/-- How the start of the workers goes. -/
inductive Launch where
  /-- All of them are up. -/
  | up
  /-- The system refuses the next thread after so many workers. -/
  | refused (started : Nat) (fault : Fault)
  /-- The next worker cannot have its mailbox or its thread's name after so many. -/
  | panicked (started : Nat)
  deriving DecidableEq

/-- The fault of a stage whose thread the system refuses. -/
def Stage.refused (stage : Stage) (reason : String) : Fault :=
  .workerUnavailable stage.name ("Failed to start worker thread: " ++ reason)

namespace Call

/-- Start a worker for every stage of a list, the first one at the given position, up to the
first that does not come up. -/
def launch (call : Call) (settings : Settings) (ordinal : Nat) : List Stage → Launch
  | [] => .up
  | stage :: rest =>
      match Worker.spawn? stage ordinal settings (call.clocks.stamp ordinal) with
      | none => .panicked ordinal
      | some _ =>
          match call.refusal? ordinal with
          | some reason => .refused ordinal (stage.refused reason)
          | none => launch call settings (ordinal + 1) rest

end Call

namespace Coordinator

/-- What comes of every call but the first. -/
def refusal (coordinator : Coordinator) : Response :=
  ⟨⟨coordinator, .fault coordinator.alreadyStarted, []⟩, 0, []⟩

/-- What may come of a call whose run executes schedules in this way.  A coordinator that has
been used refuses it; a thread that does not start fails it; and if all workers are up it is
over when their run is, under some schedule. -/
inductive RespondsBy
    (coordinator : Coordinator)
    (execute? : Run → List Run.Action → Option (Run × List Run.Event))
    (call : Call) :
    Response → Prop where
  | refuse :
      coordinator.state ≠ .idle →
      RespondsBy coordinator execute? call coordinator.refusal
  | panic {started : Nat} :
      coordinator.state = .idle →
      call.launch coordinator.settings 0 coordinator.stages = .panicked started →
      RespondsBy coordinator execute? call ⟨⟨coordinator, .panic, []⟩, started, []⟩
  | fail {started : Nat} {fault : Fault} :
      coordinator.state = .idle →
      call.launch coordinator.settings 0 coordinator.stages = .refused started fault →
      RespondsBy coordinator execute? call
        ⟨⟨{ coordinator with state := .failed }, .fault fault, []⟩, started, []⟩
  | run {started reached : Run} {schedule : List Run.Action} {events : List Run.Event}
      {ending : Run.Ending} :
      coordinator.state = .idle →
      call.launch coordinator.settings 0 coordinator.stages = .up →
      Run.start? coordinator.stages coordinator.settings call.clocks call.observer?
        call.batches = some started →
      execute? started schedule = some (reached, events) →
      reached.ending? = some ending →
      RespondsBy coordinator execute? call
        ⟨coordinator.answer reached ending, started.workers.length, events⟩

/-- What may come of a call. -/
def Responds (coordinator : Coordinator) (call : Call) (response : Response) : Prop :=
  coordinator.RespondsBy Run.execute? call response

end Coordinator

/-- Calls of a coordinator, each with what comes of it, and what is left of the coordinator
in the end. -/
inductive Session : Coordinator → List (Call × Response) → Coordinator → Prop where
  | nil {coordinator : Coordinator} : Session coordinator [] coordinator
  | cons {coordinator last : Coordinator} {call : Call} {response : Response}
      {later : List (Call × Response)} :
      coordinator.Responds call response →
      Session response.answer.coordinator later last →
      Session coordinator ((call, response) :: later) last

end StagePipeline
