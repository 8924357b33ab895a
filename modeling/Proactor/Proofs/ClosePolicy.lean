import Proactor.Proofs.Transcripts
import Proactor.Socket.Release
/-! # The close policy

A release must not close a descriptor twice, since the number may be in use again, and must not
reset a connection that could have been closed in order.

* **Rules** (`Release.Allowed`).  What a call of a release may be, by the calls before it.
* **Courses** (`Release.Course`).  All that the system calls of a release can come to: a close, or a
  close that would block, a switch to blocking mode (`Switch`) and then a close or a reset
  (`Reset`).
* **The law** (`Release.close_policy`).  Whatever the kernel answers, every call is allowed, and the
  result is the answer to the last one. -/

namespace Proactor

namespace Release

open SystemCall Socket

/-! ### Rules -/

/-- The number of the error of a call that failed. -/
def failure? (x : Exchange SystemCall) : Option Int :=
  match (x.answer : x.request.Reply) with
  | .ok _ => none
  | .error raw => some raw

variable (fd : Descriptor)

/-- Have the next close reset the connection: a linger time of zero. -/
def resetCall : SystemCall := .setOption fd 1 13 [1, 0]

/-- A call that a release may make, and that is about its descriptor. -/
def Concerns : SystemCall → Prop
  | .setFlags fd' _ => fd' = fd
  | call => call = .close fd ∨ call = .getFlags fd ∨ call = resetCall fd

/-- The closes among calls. -/
def closes (calls : List (Exchange SystemCall)) : List (Exchange SystemCall) :=
  calls.filter (·.request = .close fd)

/-- A close after which the descriptor is still open: it would have blocked. -/
def Refused (x : Exchange SystemCall) : Prop := x.request = .close fd ∧ failure? x = some 11

/-- A failed step of the switch to blocking mode. -/
def FailsToSwitch (x : Exchange SystemCall) : Prop :=
  (x.request = .getFlags fd ∨ ∃ flags, x.request = .setFlags fd flags) ∧
    ∃ raw, failure? x = some raw

/-- What call `x` of a release may be, where `before` are the calls before it. -/
structure Allowed (lingering : Bool) (before : List (Exchange SystemCall))
    (x : Exchange SystemCall) : Prop where
  concerns : Concerns fd x.request
  /-- Only a close that would have blocked is followed by another call. -/
  unclosed : ∀ c ∈ closes fd before, failure? c = some 11
  /-- Nothing follows a second close. -/
  once : (closes fd before).length ≤ 1
  /-- The connection is reset where that is wanted, or where the descriptor cannot be switched to
  blocking mode after a close that would have blocked. -/
  reset : x.request = resetCall fd → lingering = false ∨
    ∃ c s, [c, s].Sublist before ∧ Refused fd c ∧ FailsToSwitch fd s
  /-- The descriptor is not closed if a linger time is known and cannot be set. -/
  tolerated : x.request = .close fd → ∀ l ∈ before, l.request = resetCall fd → ∀ raw,
    failure? l = some raw → raw = 22 ∨ raw = 92
  /-- Of the flags that were read only the one for blocking is written otherwise, and the flags
  without a meaning are not written. -/
  flags : ∀ flags, x.request = .setFlags fd flags → ∃ read : Int32,
    before.getLast? = some ⟨.getFlags fd, .ok read⟩ ∧
      flags = read &&& knownFlags &&& ~~~ nonBlocking ∧ flags ≠ read &&& knownFlags

/-- The last call decides: its success is one of the release if it is a close, and its error is the
error of the release. -/
def Decides (calls : List (Exchange SystemCall)) (result : Except Status Unit) : Prop :=
  ∃ before last, calls = before ++ [last] ∧
    (result = .ok () ↔ last.request = .close fd ∧ failure? last = none) ∧
    ∀ status, result = .error status → ∃ raw, failure? last = some raw ∧ status = .ofRaw raw

/-- Every call is allowed by those before it, and the last answer is the result. -/
structure Policy (lingering : Bool) (calls : List (Exchange SystemCall))
    (result : Except Status Unit) : Prop where
  allowed : ∀ before x after, calls = before ++ x :: after → Allowed fd lingering before x
  twice : (closes fd calls).length ≤ 2
  /-- A release begins with what is wanted. -/
  begins : (calls.head?.map (·.request)) = some (if lingering then .close fd else resetCall fd)
  /-- It does not leave it at a first close that would have blocked. -/
  goesOn : lingering = true → ∀ x, calls = [x] → ¬ Refused fd x
  decides : Decides fd calls result

/-! ### Courses -/

/-- What having calls on the descriptor block can come to. -/
inductive Switch : List (Exchange SystemCall) → Except Errno Unit → Prop
  | unread (raw : Int) : Switch [⟨.getFlags fd, .error raw⟩] (.error (.ofRaw raw))
  | right {read : Int32}
      (same : read &&& knownFlags &&& ~~~ nonBlocking = read &&& knownFlags) :
      Switch [⟨.getFlags fd, .ok read⟩] (.ok ())
  | written {read : Int32} (differ : read &&& knownFlags &&& ~~~ nonBlocking ≠ read &&& knownFlags)
      (answer : Except Int Unit) :
      Switch [⟨.getFlags fd, .ok read⟩,
        ⟨.setFlags fd (read &&& knownFlags &&& ~~~ nonBlocking), answer⟩] (answer.mapError .ofRaw)

/-- What a close with a reset can come to. -/
inductive Reset : List (Exchange SystemCall) → Except Status Unit → Prop
  | closed (linger answer : Except Int Unit)
      (tolerated : ∀ raw, linger = .error raw → raw = 22 ∨ raw = 92) :
      Reset [⟨resetCall fd, linger⟩, ⟨.close fd, answer⟩] (answer.mapError .ofRaw)
  | left (raw : Int) (other : ¬ (raw = 22 ∨ raw = 92)) :
      Reset [⟨resetCall fd, .error raw⟩] (.error (.ofRaw raw))

/-- What a release can come to. -/
inductive Course : Bool → List (Exchange SystemCall) → Except Status Unit → Prop
  | closed (answer : Except Int Unit) (notRefused : answer ≠ .error 11) :
      Course true [⟨.close fd, answer⟩] (answer.mapError .ofRaw)
  | closedLater {switch : List (Exchange SystemCall)} (switched : Switch fd switch (.ok ()))
      (answer : Except Int Unit) :
      Course true (⟨.close fd, .error 11⟩ :: (switch ++ [⟨.close fd, answer⟩]))
        (answer.mapError .ofRaw)
  | resetLater {switch reset : List (Exchange SystemCall)} {e : Errno} {result : Except Status Unit}
      (failed : Switch fd switch (.error e)) (closed : Reset fd reset result) :
      Course true (⟨.close fd, .error 11⟩ :: (switch ++ reset)) result
  | reset {calls : List (Exchange SystemCall)} {result : Except Status Unit}
      (closed : Reset fd calls result) : Course false calls result

variable {fd}
variable {t : List (Exchange SystemCall)}

theorem transcript_perform {call : SystemCall} {result : Except Errno call.Value}
    (h : (perform call).Transcript t result) :
    ∃ reply : call.Reply, t = [⟨call, reply⟩] ∧ result = reply.mapError .ofRaw :=
  Program.transcript_ask_done h

theorem withMode_true (flags : Int32) : withMode flags true = flags &&& ~~~ nonBlocking := rfl

theorem switch_of_transcript {result : Except Errno Unit}
    (h : (setMode fd true).Transcript t result) : Switch fd t result := by
  obtain ⟨t₁, t₂, reading, rfl, asked, later⟩ := Program.transcript_bind_iff.mp h
  obtain ⟨reply, rfl, rfl⟩ := transcript_perform asked
  cases reply with
  | error raw =>
      obtain ⟨rfl, rfl⟩ := Program.transcript_pure_iff.mp later
      exact .unread raw
  | ok read =>
      change Int32 at read
      change (if withMode (read &&& knownFlags) true = read &&& knownFlags then pure (.ok ())
        else perform (.setFlags fd (withMode (read &&& knownFlags) true))).Transcript t₂ result
        at later
      rw [withMode_true] at later
      split at later
      case isTrue same =>
        obtain ⟨rfl, rfl⟩ := Program.transcript_pure_iff.mp later
        exact .right same
      case isFalse differ =>
        obtain ⟨answer, rfl, rfl⟩ := transcript_perform later
        exact .written differ answer

theorem mapError_ofRaw (answer : Except Int Unit) :
    (answer.mapError Errno.ofRaw).mapError Status.ofError = answer.mapError .ofRaw := by
  cases answer <;> rfl

theorem transcript_closeAtLast {result : Except Status Unit}
    (h : ((closeAtLast fd).interpret ofKernel).Transcript t result) :
    ∃ answer : Except Int Unit, t = [⟨.close fd, answer⟩] ∧ result = answer.mapError .ofRaw := by
  rw [closeAtLast, Program.interpret_bind] at h
  obtain ⟨t₁, t₂, reply, rfl, asked, later⟩ := Program.transcript_bind_iff.mp h
  obtain ⟨answer, rfl, rfl⟩ := transcript_perform (Program.interpret_request ofKernel _ ▸ asked)
  obtain ⟨rfl, rfl⟩ := Program.transcript_pure_iff.mp later
  exact ⟨answer, rfl, mapError_ofRaw answer⟩

theorem isTolerated_ofRaw (raw : Int) :
    isTolerated (.ofRaw raw) = true ↔ raw = 22 ∨ raw = 92 := by
  rw [isTolerated, decide_eq_true_iff]
  exact or_congr (Errno.ofRaw_eq_iff (by decide) raw) (Errno.ofRaw_eq_iff (by decide) raw)

theorem reset_of_transcript {result : Except Status Unit}
    (h : ((abortively fd).interpret ofKernel).Transcript t result) : Reset fd t result := by
  rw [abortively, Program.interpret_bind] at h
  obtain ⟨t₁, t₂, reply, rfl, asked, later⟩ := Program.transcript_bind_iff.mp h
  obtain ⟨linger, rfl, rfl⟩ := transcript_perform (Program.interpret_request ofKernel _ ▸ asked)
  cases linger with
  | ok _ =>
      obtain ⟨answer, rfl, rfl⟩ := transcript_closeAtLast later
      exact .closed (.ok ()) answer (fun _ h => nomatch h)
  | error raw =>
      dsimp only [Except.mapError] at later
      split at later
      case isTrue tolerated =>
        obtain ⟨answer, rfl, rfl⟩ := transcript_closeAtLast later
        refine .closed (.error raw) answer fun raw' h => ?_
        cases h
        exact (isTolerated_ofRaw raw).mp tolerated
      case isFalse other =>
        cases later with
        | note _ rest =>
            cases rest
            exact .left raw (mt (isTolerated_ofRaw raw).mpr other)

theorem course_of_refusal {result : Except Status Unit}
    (h : ((afterRefusal fd).interpret ofKernel).Transcript t result) :
    Course fd true (⟨.close fd, .error 11⟩ :: t) result := by
  rw [afterRefusal, Program.interpret_bind] at h
  obtain ⟨t₀, t, _, rfl, logged, rest⟩ := Program.transcript_bind_iff.mp h
  obtain rfl := Program.transcript_log_iff.mp logged
  rw [Program.interpret_bind] at rest
  obtain ⟨t₁, t₂, reply, rfl, asked, later⟩ := Program.transcript_bind_iff.mp rest
  have switch := switch_of_transcript (Program.interpret_request ofKernel _ ▸ asked)
  cases reply with
  | ok _ =>
      obtain ⟨answer, rfl, rfl⟩ := transcript_closeAtLast later
      exact .closedLater switch answer
  | error e =>
      rw [Program.interpret_bind] at later
      obtain ⟨t₀, t₂, _, rfl, logged, reset⟩ := Program.transcript_bind_iff.mp later
      obtain rfl := Program.transcript_log_iff.mp logged
      change Course fd true (_ :: (t₁ ++ t₂)) result
      exact .resetLater switch (reset_of_transcript reset)

theorem course_of_transcript {lingering : Bool} {result : Except Status Unit}
    (h : (bySystemCalls fd lingering).Transcript t result) : Course fd lingering t result := by
  cases lingering with
  | false => exact .reset (reset_of_transcript h)
  | true =>
      rw [bySystemCalls, release, if_pos rfl, Program.interpret_bind] at h
      obtain ⟨t₁, t₂, reply, rfl, asked, later⟩ := Program.transcript_bind_iff.mp h
      obtain ⟨answer, rfl, rfl⟩ :=
        transcript_perform (Program.interpret_request ofKernel _ ▸ asked)
      cases answer with
      | ok _ =>
          obtain ⟨rfl, rfl⟩ := Program.transcript_pure_iff.mp later
          exact .closed (.ok ()) nofun
      | error raw =>
          dsimp only [Except.mapError] at later
          split at later
          case isTrue again =>
            obtain rfl : raw = 11 := (Errno.ofRaw_eq_iff (by decide) raw).mp again
            exact course_of_refusal later
          case isFalse other =>
            obtain ⟨rfl, rfl⟩ := Program.transcript_pure_iff.mp later
            refine .closed (.error raw) fun refused => other ?_
            cases refused
            rfl

/-! ### Every call is allowed -/

/-- Calls that are allowed one after another, where others come before them. -/
def AllAllowed (fd : Descriptor) (lingering : Bool) (earlier calls : List (Exchange SystemCall)) :
    Prop :=
  ∀ before x after, calls = before ++ x :: after → Allowed fd lingering (earlier ++ before) x

section allowed
variable {lingering : Bool} {earlier l k : List (Exchange SystemCall)} {x : Exchange SystemCall}

theorem allAllowed_nil : AllAllowed fd lingering earlier [] := by
  intro before x after h
  cases before <;> cases h

theorem allAllowed_cons (first : Allowed fd lingering earlier x)
    (later : AllAllowed fd lingering (earlier ++ [x]) l) :
    AllAllowed fd lingering earlier (x :: l) := by
  intro before y after h
  cases before with
  | nil =>
      obtain ⟨rfl, -⟩ := List.cons.inj h
      rw [List.append_nil]
      exact first
  | cons z before =>
      obtain ⟨rfl, rest⟩ := List.cons.inj h
      rw [List.append_cons]
      exact later before y after rest

theorem allAllowed_append (first : AllAllowed fd lingering earlier l)
    (later : AllAllowed fd lingering (earlier ++ l) k) :
    AllAllowed fd lingering earlier (l ++ k) := by
  induction l generalizing earlier with
  | nil =>
      rw [List.append_nil] at later
      exact later
  | cons x l ih =>
      refine allAllowed_cons ?_ (ih ?_ ?_)
      · have allowed := first [] x l rfl
        rwa [List.append_nil] at allowed
      · intro before y after h
        have allowed := first (x :: before) y after (congrArg (x :: ·) h)
        rwa [List.append_cons] at allowed
      · rwa [← List.append_cons]

end allowed

/-- A close that would block. -/
def refusal (fd : Descriptor) : Exchange SystemCall := ⟨.close fd, (.error 11 : Except Int Unit)⟩

/-- What was asked so far leaves the descriptor open, and no linger time was set. -/
structure StillOpen (fd : Descriptor) (before : List (Exchange SystemCall)) : Prop where
  refused : ∀ c ∈ closes fd before, failure? c = some 11
  once : (closes fd before).length ≤ 1
  unset : ∀ l ∈ before, l.request ≠ resetCall fd

section steps
variable {lingering : Bool} {before : List (Exchange SystemCall)}

theorem stillOpen_nil : StillOpen fd [] := by
  constructor <;> simp [closes]

theorem stillOpen_refusal : StillOpen fd [refusal fd] := by
  constructor <;> simp [closes, refusal, failure?, resetCall]

/-- The switch to blocking mode closes nothing and sets no linger time. -/
theorem Switch.stillOpen {r : Except Errno Unit} (h : Switch fd t r) :
    StillOpen fd (refusal fd :: t) := by
  cases h <;> constructor <;> simp [closes, refusal, failure?, resetCall]

theorem StillOpen.allows_close (h : StillOpen fd before) (answer : Except Int Unit) :
    Allowed fd lingering before ⟨.close fd, answer⟩ where
  concerns := .inl rfl
  unclosed := h.refused
  once := h.once
  reset := by simp [resetCall]
  tolerated _ l hl isReset := absurd isReset (h.unset l hl)
  flags := by simp

theorem StillOpen.allows_getFlags (h : StillOpen fd before) (reply : Except Int Int32) :
    Allowed fd lingering before ⟨.getFlags fd, reply⟩ where
  concerns := .inr (.inl rfl)
  unclosed := h.refused
  once := h.once
  reset := by simp [resetCall]
  tolerated := by simp
  flags := by simp

theorem StillOpen.allows_reset (h : StillOpen fd before) (linger : Except Int Unit)
    (wanted : lingering = false ∨
      ∃ c s, [c, s].Sublist before ∧ Refused fd c ∧ FailsToSwitch fd s) :
    Allowed fd lingering before ⟨resetCall fd, linger⟩ where
  concerns := .inr (.inr rfl)
  unclosed := h.refused
  once := h.once
  reset _ := wanted
  tolerated := by simp [resetCall]
  flags := by simp [resetCall]

/-- The flags that were read a moment ago are written with the one for blocking cleared. -/
theorem StillOpen.allows_setFlags {read : Int32}
    (h : StillOpen fd (before ++ [⟨.getFlags fd, (.ok read : Except Int Int32)⟩]))
    (differ : read &&& knownFlags &&& ~~~ nonBlocking ≠ read &&& knownFlags)
    (answer : Except Int Unit) :
    Allowed fd lingering (before ++ [⟨.getFlags fd, (.ok read : Except Int Int32)⟩])
      ⟨.setFlags fd (read &&& knownFlags &&& ~~~ nonBlocking), answer⟩ where
  concerns := rfl
  unclosed := h.refused
  once := h.once
  reset := by simp [resetCall]
  tolerated := by simp
  flags flags isSet := by
    obtain ⟨-, rfl⟩ := SystemCall.setFlags.inj isSet
    exact ⟨read, List.getLast?_concat, rfl, differ⟩

/-- The last close after a linger time was set, or could not be set on a descriptor that knows
none. -/
theorem StillOpen.allows_close_after_reset (h : StillOpen fd before) {linger : Except Int Unit}
    (tolerated : ∀ raw, linger = .error raw → raw = 22 ∨ raw = 92) (answer : Except Int Unit) :
    Allowed fd lingering (before ++ [⟨resetCall fd, linger⟩]) ⟨.close fd, answer⟩ where
  concerns := .inl rfl
  unclosed := by
    simpa [closes, resetCall] using h.refused
  once := by
    simpa [closes, resetCall] using h.once
  reset := by simp [resetCall]
  tolerated _ l hl isReset raw failed := by
    rcases List.mem_append.mp hl with hl | hl
    · exact absurd isReset (h.unset l hl)
    · obtain rfl := List.mem_singleton.mp hl
      cases linger with
      | ok _ => cases failed
      | error raw' =>
          cases failed
          exact tolerated raw rfl
  flags := by simp

end steps

theorem Switch.allowed {r : Except Errno Unit} (h : Switch fd t r) :
    AllAllowed fd true [refusal fd] t := by
  cases h with
  | unread raw => exact allAllowed_cons (stillOpen_refusal.allows_getFlags _) allAllowed_nil
  | right same => exact allAllowed_cons (stillOpen_refusal.allows_getFlags _) allAllowed_nil
  | @written read differ answer =>
      have asked : StillOpen fd [refusal fd, ⟨.getFlags fd, (.ok read : Except Int Int32)⟩] := by
        constructor <;> simp [closes, refusal, failure?, resetCall]
      refine allAllowed_cons (stillOpen_refusal.allows_getFlags _)
          (allAllowed_cons ?_ allAllowed_nil)
      exact @StillOpen.allows_setFlags fd true [refusal fd] read asked differ answer

theorem Switch.exists_fails {e : Errno} (h : Switch fd t (.error e)) :
    ∃ s ∈ t, FailsToSwitch fd s := by
  generalize failed : (Except.error e : Except Errno Unit) = r at h
  cases h with
  | unread raw => exact ⟨_, List.mem_singleton_self _, .inl rfl, raw, rfl⟩
  | right _ => cases failed
  | written _ answer =>
      cases answer with
      | ok _ => cases failed
      | error raw =>
          exact ⟨_, List.mem_cons_of_mem _ (List.mem_singleton_self _), .inr ⟨_, rfl⟩, raw, rfl⟩

theorem Reset.allowed {lingering : Bool} {before : List (Exchange SystemCall)}
    {result : Except Status Unit} (h : Reset fd t result) (still : StillOpen fd before)
    (wanted : lingering = false ∨
      ∃ c s, [c, s].Sublist before ∧ Refused fd c ∧ FailsToSwitch fd s) :
    AllAllowed fd lingering before t := by
  cases h with
  | closed linger answer tolerated =>
      exact allAllowed_cons (still.allows_reset linger wanted)
        (allAllowed_cons (still.allows_close_after_reset tolerated answer) allAllowed_nil)
  | left raw _ => exact allAllowed_cons (still.allows_reset _ wanted) allAllowed_nil

theorem Course.allowed {lingering : Bool} {result : Except Status Unit}
    (h : Course fd lingering t result) : AllAllowed fd lingering [] t := by
  cases h with
  | closed answer _ => exact allAllowed_cons (stillOpen_nil.allows_close answer) allAllowed_nil
  | closedLater switched answer =>
      refine allAllowed_cons (stillOpen_nil.allows_close _) ?_
      exact allAllowed_append switched.allowed
        (allAllowed_cons (switched.stillOpen.allows_close answer) allAllowed_nil)
  | resetLater failed closed =>
      refine allAllowed_cons (stillOpen_nil.allows_close _) ?_
      obtain ⟨s, hs, fails⟩ := failed.exists_fails
      exact allAllowed_append failed.allowed (closed.allowed failed.stillOpen
        (.inr ⟨refusal fd, s, .cons_cons _ (List.singleton_sublist.mpr hs), ⟨rfl, rfl⟩, fails⟩))
  | reset closed => exact closed.allowed stillOpen_nil (.inl rfl)

/-! ### The law -/

theorem closes_append (l k : List (Exchange SystemCall)) :
    closes fd (l ++ k) = closes fd l ++ closes fd k := List.filter_append ..

theorem Switch.closes_eq_nil {r : Except Errno Unit} (h : Switch fd t r) : closes fd t = [] := by
  cases h <;> simp [closes]

theorem Reset.length_closes_le {result : Except Status Unit} (h : Reset fd t result) :
    (closes fd t).length ≤ 1 := by
  cases h <;> simp [closes, resetCall]

theorem length_closes_cons_le (x : Exchange SystemCall) (l : List (Exchange SystemCall)) :
    (closes fd (x :: l)).length ≤ (closes fd l).length + 1 := by
  rw [closes, List.filter_cons]
  split <;> simp [closes]

theorem decides_close (before : List (Exchange SystemCall)) (answer : Except Int Unit) :
    Decides fd (before ++ [⟨.close fd, answer⟩]) (answer.mapError .ofRaw) := by
  refine ⟨before, _, rfl, ?_⟩
  cases answer with
  | ok _ => exact ⟨iff_of_true rfl ⟨rfl, rfl⟩, nofun⟩
  | error raw =>
      refine ⟨iff_of_false nofun fun h => (nomatch h.2), fun status h => ⟨raw, rfl, ?_⟩⟩
      exact (Except.error.inj h).symm

theorem Reset.decides {result : Except Status Unit} (h : Reset fd t result)
    (before : List (Exchange SystemCall)) : Decides fd (before ++ t) result := by
  cases h with
  | closed linger answer _ =>
      have decides : Decides fd ((before ++ [⟨resetCall fd, linger⟩]) ++ [⟨.close fd, answer⟩])
          (answer.mapError .ofRaw) := decides_close _ answer
      rwa [← List.append_cons] at decides
  | left raw _ =>
      refine ⟨before, _, rfl, iff_of_false nofun fun h => (nomatch h.2),
        fun status h => ⟨raw, rfl, ?_⟩⟩
      exact (Except.error.inj h).symm

theorem Course.twice {lingering : Bool} {result : Except Status Unit}
    (h : Course fd lingering t result) : (closes fd t).length ≤ 2 := by
  cases h with
  | closed _ _ => exact Nat.le_trans (length_closes_cons_le _ _) (by simp [closes])
  | closedLater switched _ =>
      refine Nat.le_trans (length_closes_cons_le _ _) ?_
      rw [closes_append, switched.closes_eq_nil]
      simp [closes]
  | resetLater failed closed =>
      refine Nat.le_trans (length_closes_cons_le _ _) ?_
      rw [closes_append, failed.closes_eq_nil]
      exact Nat.succ_le_succ closed.length_closes_le
  | reset closed => exact Nat.le_succ_of_le closed.length_closes_le

theorem Course.decides {lingering : Bool} {result : Except Status Unit}
    (h : Course fd lingering t result) : Decides fd t result := by
  cases h with
  | closed answer _ => exact decides_close [] answer
  | @closedLater switch _ answer => exact decides_close (refusal fd :: switch) answer
  | @resetLater switch _ _ _ _ closed => exact closed.decides (refusal fd :: switch)
  | reset closed => exact closed.decides []

theorem Course.begins {lingering : Bool} {result : Except Status Unit}
    (h : Course fd lingering t result) :
    t.head?.map (·.request) = some (if lingering then .close fd else resetCall fd) := by
  cases h with
  | closed _ _ | closedLater _ _ | resetLater _ _ => rfl
  | reset closed => cases closed <;> rfl

theorem Switch.ne_nil {r : Except Errno Unit} (h : Switch fd t r) : t ≠ [] := by
  cases h <;> exact List.cons_ne_nil _ _

theorem Course.goesOn {result : Except Status Unit} (h : Course fd true t result)
    (x : Exchange SystemCall) (alone : t = [x]) : ¬ Refused fd x := by
  rintro ⟨-, refused⟩
  cases h with
  | closed answer notRefused =>
      cases alone
      cases answer with
      | ok _ => cases refused
      | error raw =>
          cases refused
          exact notRefused rfl
  | closedLater _ _ => simp at alone
  | resetLater failed _ => simp [failed.ne_nil] at alone

/-- Whatever the kernel answers, a release keeps to the policy. -/
theorem close_policy (respond : Responder SystemCall) (fd : Descriptor) (lingering : Bool) :
    Policy fd lingering ((bySystemCalls fd lingering).record respond).2
      ((bySystemCalls fd lingering).record respond).1 := by
  have course := course_of_transcript
    (Program.transcript_record respond (bySystemCalls fd lingering))
  exact
    { allowed := course.allowed
      twice := course.twice
      begins := course.begins
      goesOn := fun isLingering => by
        subst isLingering
        exact course.goesOn
      decides := course.decides }

/-- A kernel where the first close would block and the flags are those of a socket. -/
def lingers (asked : List (Exchange SystemCall)) : (call : SystemCall) → call.Reply
  | .close _ => if asked.isEmpty then .error 11 else .ok ()
  | .getFlags _ => .ok (2 ||| nonBlocking)
  | .setFlags .. => .ok ()
  | _ => .error 22

example : ((bySystemCalls 7 true).record lingers).2.map (·.request) =
    [.close 7, .getFlags 7, .setFlags 7 2, .close 7] := by decide

end Release
end Proactor
