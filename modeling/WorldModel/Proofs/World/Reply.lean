/-
What the caller of an operation is told.

A mutation leaves a world behind (`Mutation.apply`) and answers its caller. The answer is
all that a caller sees of a refusal, so statements on refused operations, or on two callers
that cannot be told apart, are statements about it. `Mutation.reply` reads it off the same
operations that `Mutation.apply` runs.
-/
import WorldModel.Proofs.World.Run

set_option autoImplicit false

namespace WorldModel

/-- **What a caller is told**: that it is done, why it was refused, or the report of a removal or
an import. -/
inductive Reply where
  | done
  | refused (r : Refusal)
  /-- The object is gone, with what went along; nothing if there was no such object. -/
  | removed (report : Option CascadeReport)
  | imported (report : ImportReport)
  /-- The problem could not be read. -/
  | unread (e : ProblemError)

/-- Whether the operation was not carried out, so that the caller gets an error. -/
def Reply.isError : Reply → Bool
  | refused _ | unread _ => true
  | done | removed _ | imported _ => false

/-- The reply to an operation that has this outcome. -/
def Outcome.reply (o : Outcome) : Reply :=
  match o.refusal with
  | none => .done
  | some r => .refused r

/-- The reply to an import: its report, or the reason why the problem could not be read. -/
def World.importReply : Except ProblemError (World × ImportReport) → Reply
  | .ok (_, report) => .imported report
  | .error e => .unread e

/-- **The answer to a mutation** of the world. -/
def Mutation.reply (w : World) : Mutation → Reply
  | addObject e => (w.addObject e).reply
  | removeObject object => .removed (w.removeObject object).2
  | addFact l => (w.addFact l).reply
  | removeFact l => (w.removeFact l).reply
  | addFluent f => (w.addFluent f).reply
  | updateFluent f => (w.updateFluent f).reply
  | removeFluent f => (w.removeFluent f).reply
  | addContingent f => (w.addContingent f).reply
  | removeContingent f => (w.removeContingent f).reply
  | setGoal f => (w.setGoal f).reply
  | clearGoal | clear => .done
  | importProblem s => World.importReply (w.importProblem s)
  | importWith g s => World.importReply (w.importWith g s)

theorem Outcome.isError_reply (o : Outcome) : o.reply.isError = o.refusal.isSome := by
  unfold Outcome.reply
  cases o.refusal <;> rfl

end WorldModel
