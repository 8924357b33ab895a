import Proactor.Proofs.Steps.Dispatch
import Proactor.Proofs.Steps.Submission
/-! # The steps of parties

The steps of submissions, requests for the channel, dispatches and closes, put together
(`Party.Step`). -/

namespace Proactor.Channel

/-- What the next step of a party can do. -/
inductive Party.Step (c : Channel) : Party → Option (Exchange Call) → Channel → Party → Prop
  | submission {op : Operation} {s s' : Submission} {x : Option (Exchange Call)} {c' : Channel}
      (h : Submission.Step c s x c' s') : Step c (.submission op s) x c' (.submission op s')
  | attachment {a a' : Attachment} {x : Option (Exchange Call)} {c' : Channel}
      (h : Attachment.Step c a x c' a') : Step c (.attachment a) x c' (.attachment a')
  | dispatch {d d' : Dispatch} {x : Option (Exchange Call)} {c' : Channel}
      (h : Dispatch.Step c d x c' d') : Step c (.dispatch d) x c' (.dispatch d')
  | closing {k k' : Closing} {x : Option (Exchange Call)} {c' : Channel}
      (h : Closing.Step c k x c' k') : Step c (.closing k) x c' (.closing k')

theorem Party.step_of_yields {c : Channel} {p : Party} {x : Option (Exchange Call)}
    {turn : Turn Channel Party} (h : (p.next c).Yields c x turn) :
    Step c p x turn.state turn.phase := by
  cases p with
  | submission op s =>
      obtain ⟨t, ht, rfl⟩ := Next.Yields.of_map h
      exact .submission (Submission.step_of_yields ht)
  | attachment a =>
      obtain ⟨t, ht, rfl⟩ := Next.Yields.of_map h
      exact .attachment (Attachment.step_of_yields ht)
  | dispatch d =>
      obtain ⟨t, ht, rfl⟩ := Next.Yields.of_map h
      exact .dispatch (Dispatch.step_of_yields ht)
  | closing k =>
      obtain ⟨t, ht, rfl⟩ := Next.Yields.of_map h
      exact .closing (Closing.step_of_yields ht)

end Proactor.Channel
