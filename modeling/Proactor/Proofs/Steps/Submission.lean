import Proactor.Proofs.Attempt
import Proactor.Proofs.Interleaving
import Proactor.Proofs.Queue
/-! # The steps of submissions

A relation with one constructor for each thing that the next step of a submission can do, with the
conditions under which it does it (`Submission.Step`), and the same for requests for the channel
itself (`Attachment.Step`).  What every step keeps is proved by cases over these relations; the
definitions of the steps are opened here only. -/

namespace Proactor.Channel

/-- Where a submission goes once the channel has joined the reactor. -/
def Submission.Phase.joined (op : Operation) (tried : Bool) : Submission.Phase :=
  if tried then .enlist op else .offer op

/-- What the next step of a submission can do. -/
inductive Submission.Step (c : Channel) :
    Submission → Option (Exchange Call) → Channel → Submission → Prop
  | enterJoined {g : Bool} {op : Operation} (h : c.attached = true) :
      Step c ⟨g, .enter op⟩ none { c with guards := c.guards + 1 } ⟨g, .offer op⟩
  | enterClosed {g : Bool} {op : Operation} (h : c.attached = false) (ho : c.isOpen = false) :
      Step c ⟨g, .enter op⟩ none { c with guards := c.guards + 1 }
        ⟨g, .complete (op.withStatus .shutdown)⟩
  | enterEarly {g : Bool} {op : Operation} (h : c.attached = false) (ho : c.isOpen = true)
      (hc : op.isConnect = true) :
      Step c ⟨g, .enter op⟩ none { c with guards := c.guards + 1 } ⟨g, .attempt ⟨op, none⟩ true⟩
  | enterFirst {g : Bool} {op : Operation} (h : c.attached = false) (ho : c.isOpen = true)
      (hc : op.isConnect = false) :
      Step c ⟨g, .enter op⟩ none { c with guards := c.guards + 1 } ⟨g, .attach op false⟩
  | attachJoined {g : Bool} {op : Operation} {tried : Bool} (h : c.attached = true) :
      Step c ⟨g, .attach op tried⟩ none c ⟨g, .joined op tried⟩
  | attachDone {g : Bool} {op : Operation} {tried : Bool} (h : c.attached = false) :
      Step c ⟨g, .attach op tried⟩ (some ⟨.register c.fd .standard, .ok ()⟩)
        { c with attached := true, registered := .standard } ⟨g, .joined op tried⟩
  | attachFailed {g : Bool} {op : Operation} {tried : Bool} {e : Errno} (h : c.attached = false) :
      Step c ⟨g, .attach op tried⟩ (some ⟨.register c.fd .standard, .error e⟩) c
        ⟨g, .complete (op.withStatus (.ofError e))⟩
  | offerIdle {g : Bool} {op : Operation} (hs : (c.queue op.direction).isStopped = false)
      (he : (c.queue op.direction).entries = []) :
      Step c ⟨g, .offer op⟩ none (c.withQueue op.direction (c.queue op.direction).hinted)
        ⟨g, .ofProgress false (Attempt.start op)⟩
  | offerBusy {g : Bool} {op : Operation} (hs : (c.queue op.direction).isStopped = false)
      (he : (c.queue op.direction).entries ≠ []) :
      Step c ⟨g, .offer op⟩ none
        (abandon ⟨g, .offer op⟩ (c.withQueue op.direction ((c.queue op.direction).pushed op)))
        ⟨g, .answered .pending⟩
  | offerStopped {g : Bool} {op : Operation} (hs : (c.queue op.direction).isStopped = true)
      (hd : (c.queue op.direction).draining = false) :
      Step c ⟨g, .offer op⟩ none c ⟨g, .complete (op.withStatus .shutdown)⟩
  | offerDraining {g : Bool} {op : Operation} (hs : (c.queue op.direction).isStopped = true)
      (hd : (c.queue op.direction).draining = true) :
      Step c ⟨g, .offer op⟩ none
        (abandon ⟨g, .offer op⟩ (c.withQueue op.direction ((c.queue op.direction).park op)))
        ⟨g, .answered (.failed .shutdown)⟩
  | attempted {g : Bool} {a : Attempt} {early : Bool} (reply : (a.call c.fd).request.Reply) :
      Step c ⟨g, .attempt a early⟩ (some ⟨.system (a.call c.fd).request, reply⟩) c
        ⟨g, .ofProgress early ((a.call c.fd).resume reply)⟩
  | enlistHinted {g : Bool} {op : Operation} (hs : (c.queue op.direction).state = .set)
      (he : (c.queue op.direction).entries = []) :
      Step c ⟨g, .enlist op⟩ none (c.withQueue op.direction (c.queue op.direction).hinted)
        ⟨g, .ofProgress false (Attempt.start op)⟩
  | enlistWaiting {g : Bool} {op : Operation} (hs : (c.queue op.direction).isStopped = false)
      (hn : ¬ ((c.queue op.direction).state = .set ∧ (c.queue op.direction).entries = [])) :
      Step c ⟨g, .enlist op⟩ none
        (abandon ⟨g, .enlist op⟩ (c.withQueue op.direction ((c.queue op.direction).pushed op)))
        ⟨g, .answered .pending⟩
  | enlistStopped {g : Bool} {op : Operation} (hs : (c.queue op.direction).isStopped = true)
      (hd : (c.queue op.direction).draining = false) :
      Step c ⟨g, .enlist op⟩ none c ⟨g, .complete (op.withStatus .shutdown)⟩
  | enlistDraining {g : Bool} {op : Operation} (hs : (c.queue op.direction).isStopped = true)
      (hd : (c.queue op.direction).draining = true) :
      Step c ⟨g, .enlist op⟩ none
        (abandon ⟨g, .enlist op⟩ (c.withQueue op.direction ((c.queue op.direction).park op)))
        ⟨g, .answered (.failed .shutdown)⟩
  | completed {g : Bool} {op : Operation} :
      Step c ⟨g, .complete op⟩ (some ⟨c.complete op, ()⟩) (abandon ⟨g, .complete op⟩ c)
        ⟨g, .answered (.of op.status)⟩

theorem Submission.goto_ofProgress (s : Submission) (c : Channel) (early : Bool) (r : Progress) :
    s.goto c (.ofProgress early r) = ⟨c, { s with phase := .ofProgress early r }, []⟩ := by
  cases r with
  | calling a => rfl
  | ready op => rfl
  | notReady op => cases early <;> rfl

theorem Submission.goto_joined (s : Submission) (c : Channel) (op : Operation) (tried : Bool)
    (lines : List Log.Entry) :
    s.goto c (if tried then .enlist op else .offer op) lines =
      ⟨c, { s with phase := .joined op tried }, lines⟩ := by
  cases tried <;> rfl

theorem Submission.step_of_yields {c : Channel} {s : Submission} {x : Option (Exchange Call)}
    {turn : Turn Channel Submission} (h : (s.next c).Yields c x turn) :
    Step c s x turn.state turn.phase := by
  obtain ⟨g, phase⟩ := s
  cases phase with
  | enter op =>
      simp only [next] at h
      split at h
      · next ha =>
        cases h
        exact .enterJoined ha
      · next ha =>
        have ha : c.attached = false := by simpa using ha
        split at h
        · next ho =>
          cases h
          exact .enterClosed ha (by simpa using ho)
        · next ho =>
          have ho : c.isOpen = true := by simpa using ho
          split at h
          · next hc =>
            cases h
            rw [Attempt.start_of_isConnect hc]
            exact .enterEarly ha ho hc
          · next hc =>
            cases h
            exact .enterFirst ha ho (by simpa using hc)
  | attach op tried =>
      simp only [next] at h
      split at h
      · next ha =>
        cases h
        rw [goto_joined]
        exact .attachJoined ha
      · next ha =>
        have ha : c.attached = false := by simpa using ha
        cases h with
        | ask _ _ answer =>
            cases answer with
            | ok u =>
                simp only [afterAttach, afterRegister, goto_joined]
                exact .attachDone ha
            | error e => exact .attachFailed ha
  | offer op =>
      simp only [next] at h
      cases h
      cases hs : (c.queue op.direction).isStopped with
      | true =>
          cases hd : (c.queue op.direction).draining with
          | true =>
              rw [Queue.offer_draining op hs hd]
              exact .offerDraining hs hd
          | false =>
              rw [Queue.offer_stopped op hs hd]
              simp only [afterOffer, withQueue_queue]
              exact .offerStopped hs hd
      | false =>
          by_cases he : (c.queue op.direction).entries = []
          · rw [Queue.offer_idle op hs he]
            simp only [afterOffer, goto_ofProgress]
            exact .offerIdle hs he
          · rw [Queue.offer_busy op hs he]
            exact .offerBusy hs he
  | attempt a early =>
      cases h with
      | ask _ _ answer =>
          simp only [goto_ofProgress]
          exact .attempted answer
  | enlist op =>
      simp only [next] at h
      cases h
      cases hs : (c.queue op.direction).isStopped with
      | true =>
          cases hd : (c.queue op.direction).draining with
          | true =>
              rw [Queue.enlist_draining op hs hd]
              exact .enlistDraining hs hd
          | false =>
              rw [Queue.enlist_stopped op hs hd]
              simp only [afterEnlist, withQueue_queue]
              exact .enlistStopped hs hd
      | false =>
          by_cases hn : (c.queue op.direction).state = .set ∧ (c.queue op.direction).entries = []
          · rw [Queue.enlist_hinted op hn.1 hn.2]
            simp only [afterEnlist, goto_ofProgress]
            exact .enlistHinted hn.1 hn.2
          · rw [Queue.enlist_waiting op hs hn]
            exact .enlistWaiting hs hn
  | complete op =>
      cases h with
      | ask _ _ answer => exact .completed
  | answered answer => cases h
  | broken v => cases h

/-! ### Requests for the channel -/

/-- What the next step of a request for the channel can do. -/
inductive Attachment.Step (c : Channel) :
    Attachment → Option (Exchange Call) → Channel → Attachment → Prop
  | entered (ho : c.isOpen = true) :
      Step c .enter none { c with guards := c.guards + 1 } .attach
  | refused (ho : c.isOpen = false) :
      Step c .enter none c (.ended (.error (.socket .shutdown)))
  | joined (h : c.attached = true) : Step c .attach none (leave c) (.ended (.ok ()))
  | done (h : c.attached = false) :
      Step c .attach (some ⟨.register c.fd .standard, .ok ()⟩)
        (leave { c with attached := true, registered := .standard }) (.ended (.ok ()))
  | failed {e : Errno} (h : c.attached = false) :
      Step c .attach (some ⟨.register c.fd .standard, .error e⟩) (leave c)
        (.ended (.error (.register e)))

theorem Attachment.step_of_yields {c : Channel} {a : Attachment} {x : Option (Exchange Call)}
    {turn : Turn Channel Attachment} (h : (a.next c).Yields c x turn) :
    Step c a x turn.state turn.phase := by
  cases a with
  | enter =>
      simp only [next] at h
      split at h
      · next ho =>
        cases h
        exact .entered ho
      · next ho =>
        cases h
        exact .refused (by simpa using ho)
  | attach =>
      simp only [next] at h
      split at h
      · next ha =>
        cases h
        exact .joined ha
      · next ha =>
        have ha : c.attached = false := by simpa using ha
        cases h with
        | ask _ _ answer =>
            cases answer with
            | ok u => exact .done ha
            | error e => exact .failed ha
  | ended result => cases h

end Proactor.Channel
