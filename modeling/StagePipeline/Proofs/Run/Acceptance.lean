import StagePipeline.Proofs.Run.Refinement
import StagePipeline.Proofs.Worker.Acceptance
import StagePipeline.Proofs.Worker.Account

/-!
# No call of a run is refused

The coordinator calls a worker again only after the stage has answered its last call
there, and a worker accepts such a call.  So a run may end with a fault of a stage, with a
deadline or with the death of a thread, but never because a worker is still busy.
-/

namespace StagePipeline
namespace Run

/-! ## The faults of a run -/

/-- No worker refuses a call with this fault. -/
def Unrefused (fault : Fault) : Prop :=
  ∀ worker : Worker, ¬worker.Refuses (.error fault)

/-- A fault with a batch index is no refusal. -/
theorem unrefused_of_batchIndex?
    {fault : Fault}
    {index : Nat}
    (tagged : fault.batchIndex? = some index) :
    Unrefused fault := by
  rintro worker (refused | refused | refused) <;> cases refused <;> cases tagged

/-- The fault of a stage or of a deadline is no refusal. -/
theorem unrefused_of_tagged
    {fault : Fault}
    {stage : Stage}
    {index : Nat}
    (tagged : Sequential.Tagged fault stage index) :
    Unrefused fault := by
  obtain ⟨-, tagged | ⟨rfl, -⟩⟩ := tagged
  · exact unrefused_of_batchIndex? tagged
  · intro worker
    simp [Worker.Refuses, Worker.stillBusy, Worker.stopped, Worker.mailboxClosed,
      Worker.unavailable]

theorem unrefused_noStages : Unrefused noStages := by
  rintro worker (refused | refused | refused) <;> cases refused

/-- If the run has come to its end by a fault, no worker has refused a call with it. -/
def Position.Unrefused : Position → Prop
  | .ended (.failed fault) _ _ => Run.Unrefused fault
  | _ => True

variable
  {settings : Settings}
  {clocks : Clocks}
  {stages : List Stage}
  {run next reached : Run}
  {position onward last : Position}
  {action : Action}
  {event? : Option Event}

/-- A turn ends a run with what a stage has replied, with a deadline, or because an output
cannot be handed on. -/
theorem Turn.unrefused
    (turned : Turn settings clocks stages run position action event? next onward)
    (unrefused : position.Unrefused) :
    onward.Unrefused := by
  cases turned with
  | inner => exact unrefused
  | begin | complete | take | pass | finish | unwind => trivial
  | astray => exact unrefused_noStages
  | refuse => exact unrefused_of_batchIndex? rfl
  | fail replied => exact unrefused_of_tagged (Sequential.reply_fault replied)
  | expire => exact unrefused_of_batchIndex? rfl
  | @beginLate ending => cases ending <;> exact unrefused

/-- What no turn brings about, no row of turns brings about. -/
theorem Turns.unrefused
    {schedule : List Action}
    {events : List Event}
    (turned : Turns settings clocks stages run position schedule events reached last)
    (unrefused : position.Unrefused) :
    last.Unrefused := by
  induction turned with
  | stay => exact unrefused
  | turn first _ inductionHypothesis => exact inductionHypothesis (first.unrefused unrefused)

/-- Under no schedule does a hop fail because a worker has refused its batch. -/
def NeverRefused (run : Run) : Prop :=
  ∀ schedule reached events fault,
    run.execute? schedule = some (reached, events) →
    reached.control.ending? = some (.failed fault) →
    Unrefused fault

/-- No run is refused by a worker of its own. -/
theorem neverRefused
    {observer? : Option Observer}
    {batches : List Batch}
    (started : start? stages settings clocks observer? batches = some run) :
    run.NeverRefused := by
  intro schedule reached events fault executed ends
  obtain ⟨last, turned, orderly⟩ := (Orderly.of_start started).turns executed
  obtain ⟨ordinal, job?, rfl⟩ := orderly.position_of_ending ends
  exact turned.unrefused trivial

/-- A worker that has answered its last accepted call is seen as idle and accepts the next
one, whatever gave up before.  Hence no hop of any run fails because a worker has refused
its batch. -/
theorem no_spurious_refusal :
    (∀ stage ordinal settings clock worker,
      Worker.spawn? stage ordinal settings clock = some worker →
      worker.AcceptsAfterReplies) ∧
    (∀ stages settings clocks observer? batches run,
      start? stages settings clocks observer? batches = some run →
      run.NeverRefused) :=
  ⟨fun _ _ _ _ _ spawned => Worker.acceptsAfterReplies spawned,
    fun _ _ _ _ _ _ started => neverRefused started⟩

/-- A deadline that passes before the first thread has taken its command. -/
def overlooked : List Action :=
  [.take, .client .inspect, .client .send, .client .expire]

/-- The last call of a row that crosses late replies is followed by an accepted one, and a
run that a deadline ends has not been refused. -/
theorem no_spurious_refusal_crossing :
    (∃ reached events,
      Worker.impatient.execute? Worker.crossing = some (reached, events) ∧
        reached.next = 2 ∧ reached.AcceptsNext) ∧
    ∃ run reached events fault,
      start? Stage.builtin Settings.testing
        ⟨fun _ _ => default, fun _ _ => default, default⟩ none
        [⟨7, [.raw 0 "50"]⟩] = some run ∧
      run.execute? overlooked = some (reached, events) ∧
      reached.control.ending? = some (.failed fault) ∧ Unrefused fault := by
  obtain ⟨accepts, unrefused⟩ := no_spurious_refusal
  constructor
  · have spawned :
        Worker.spawn? .filter 0 { Settings.standard with stageTimeout := some 5 }
          (fun _ => default) = some Worker.impatient := rfl
    have executed : Worker.impatient.execute? Worker.crossing = some (_, _) := rfl
    have last : Worker.lastAccepted? (Worker.impatient.receipts Worker.crossing) = some _ := rfl
    exact ⟨_, _, executed, rfl,
      accepts _ _ _ _ _ spawned _ _ _ _ executed last rfl rfl rfl rfl⟩
  · have seen :
        ((start? Stage.builtin Settings.testing
          ⟨fun _ _ => default, fun _ _ => default, default⟩ none
          [⟨7, [.raw 0 "50"]⟩]).bind fun run =>
            (run.execute? overlooked).bind fun result => result.1.control.ending?) =
          some (.failed (.timedOut "parse" 7 (.ofMilliseconds 5000))) := by
      decide +kernel
    obtain ⟨run, started, seen⟩ := Option.bind_eq_some_iff.mp seen
    obtain ⟨⟨reached, events⟩, executed, ends⟩ := Option.bind_eq_some_iff.mp seen
    exact ⟨run, reached, events, _, started, executed, ends,
      unrefused _ _ _ _ _ run started _ _ _ _ executed ends⟩

end Run
end StagePipeline
