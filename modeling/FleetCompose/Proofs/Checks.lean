import FleetCompose.Data.Accumulate
import Mathlib.Data.List.Forall2

/-!
# Checks that succeed and fail

A check is an `Except` computation whose answer is what it has read. This module says when
the combinators of checks succeed and when they fail. The loop over a section is the only
recursion of the checks, and one theorem is enough for all sections: a section is accepted
exactly if every entry can be read on its own and the images of any two entries are compatible.
Otherwise the loop fails at the first entry that a step refuses. A property of failures is kept by
the combinators, so it holds of a check if it holds of the failures that the parts of the check name.
-/

namespace FleetCompose

variable {α β γ δ ε : Type}

/-! ## One step -/

@[simp] theorem ok_bind (value : α) (next : α → Except ε β) :
    (Except.ok value >>= next) = next value := rfl

@[simp] theorem error_bind (failure : ε) (next : α → Except ε β) :
    (Except.error failure >>= next) = .error failure := rfl

@[simp] theorem map_ok (image : α → β) (value : α) :
    (Except.ok value : Except ε α).map image = .ok (image value) := rfl

@[simp] theorem map_error (image : α → β) (failure : ε) :
    (Except.error failure : Except ε α).map image = .error failure := rfl

theorem exists_ok_of_isSome {outcome : Except ε α} (succeeds : outcome.toOption.isSome = true) :
    ∃ value, outcome = .ok value := by
  cases outcome with
  | error failure => cases succeeds
  | ok value => exact ⟨value, rfl⟩

/-- A run of which a view is known. -/
theorem exists_ok_of_map_eq_some {outcome : Except ε α} {view : α → β} {seen : β}
    (ran : outcome.toOption.map view = some seen) :
    ∃ value, outcome = .ok value ∧ view value = seen := by
  cases outcome with
  | error failure => cases ran
  | ok value => exact ⟨value, rfl, Option.some.inj ran⟩

theorem bind_eq_ok_iff {first : Except ε α} {next : α → Except ε β} {answer : β} :
    (first >>= next) = .ok answer ↔ ∃ value, first = .ok value ∧ next value = .ok answer := by
  cases first <;> simp [bind, Except.bind]

@[simp] theorem pure_eq_ok_iff {value answer : α} :
    (pure value : Except ε α) = .ok answer ↔ value = answer := by
  simp [pure, Except.pure]

theorem map_eq_ok_iff {image : α → β} {first : Except ε α} {answer : β} :
    first.map image = .ok answer ↔ ∃ value, first = .ok value ∧ image value = answer := by
  cases first <;> simp [Except.map]

theorem mapError_eq_ok_iff {image : ε → δ} {first : Except ε α} {answer : α} :
    first.mapError image = .ok answer ↔ first = .ok answer := by
  cases first <;> simp [Except.mapError]

@[simp] theorem throw_bind_ne_ok {failure : ε} {next : α → Except ε β} {answer : β} :
    (throw failure >>= next) ≠ .ok answer := by
  simp [throw, throwThe, MonadExceptOf.throw, bind, Except.bind]

/-- A computation that begins with a refusal succeeds exactly if the condition of the refusal
fails and the rest succeeds. -/
theorem refuse_eq_ok_iff {condition : Prop} [Decidable condition] {failure : ε}
    {next : γ → Except ε β} {rest : Except ε β} {answer : β} :
    (if condition then throw failure >>= next else rest) = .ok answer ↔
      ¬condition ∧ rest = .ok answer := by
  by_cases holds : condition <;> simp [holds]

/-! ## One step that fails -/

theorem exists_error_iff_not_exists_ok {outcome : Except ε α} :
    (∃ failure, outcome = .error failure) ↔ ¬∃ value, outcome = .ok value := by
  cases outcome <;> simp

theorem bind_eq_error_iff {first : Except ε α} {next : α → Except ε β} {failure : ε} :
    (first >>= next) = .error failure ↔
      first = .error failure ∨ ∃ value, first = .ok value ∧ next value = .error failure := by
  cases first <;> simp [bind, Except.bind]

theorem map_eq_error_iff {image : α → β} {first : Except ε α} {failure : ε} :
    first.map image = .error failure ↔ first = .error failure := by
  cases first <;> simp [Except.map]

theorem mapError_eq_error_iff {image : ε → δ} {first : Except ε α} {failure : δ} :
    first.mapError image = .error failure ↔
      ∃ inner, first = .error inner ∧ image inner = failure := by
  cases first <;> simp [Except.mapError]

/-! ## Lists of images -/

/-- A reading that is a function on acceptable entries reads a list entry by entry. -/
theorem forall₂_image_iff {Accepts : α → Prop} {image : α → β} {entries : List α}
    {images : List β} :
    List.Forall₂ (fun entry read => Accepts entry ∧ read = image entry) entries images ↔
      (∀ entry ∈ entries, Accepts entry) ∧ images = entries.map image := by
  rw [List.forall₂_and_left]
  refine and_congr_right fun _ => ?_
  clear * -
  constructor
  · intro related
    induction related with
    | nil => rfl
    | cons equal _ ih => rw [equal, ih, List.map_cons]
  · intro equal
    subst equal
    rw [List.forall₂_map_right_iff]
    exact List.forall₂_same.mpr fun _ _ => rfl

/-! ## The loop -/

/-- What a step of a loop does to be accepted: it reads its entry, and the image is
compatible with what was accepted before it. -/
def StepReads (step : List β → α → Except ε β) (Reads : α → β → Prop)
    (Apart : β → β → Prop) : Prop :=
  ∀ accepted entry image, step accepted entry = .ok image ↔
    Reads entry image ∧ ∀ earlier ∈ accepted, Apart earlier image

/-- A step that refuses repeated keys. -/
theorem StepReads.of_fresh {step : List β → α → Except ε β} {Reads : α → β → Prop}
    (key : β → γ)
    (reads : ∀ accepted entry image, step accepted entry = .ok image ↔
      Reads entry image ∧ key image ∉ accepted.map key) :
    StepReads step Reads (fun earlier later => key earlier ≠ key later) := by
  intro accepted entry image
  rw [reads accepted entry image]
  simp [List.mem_map]

/-- The loop, from what was accepted before it: every entry is read, and later images are
compatible with earlier ones. -/
theorem StepReads.accumulate_eq_ok_iff {step : List β → α → Except ε β}
    {Reads : α → β → Prop} {Apart : β → β → Prop} (reads : StepReads step Reads Apart)
    {accepted : List β} {entries : List α} {images : List β} :
    accumulate step accepted entries = .ok images ↔
      ∃ added, images = accepted ++ added ∧ List.Forall₂ Reads entries added ∧
        added.Pairwise Apart ∧
        ∀ earlier ∈ accepted, ∀ later ∈ added, Apart earlier later := by
  induction entries generalizing accepted with
  | nil =>
      constructor
      · intro finished
        cases finished
        exact ⟨[], by simp, .nil, .nil, by simp⟩
      · intro given
        rcases given with ⟨added, rfl, related, -, -⟩
        cases related
        simp
  | cons entry rest ih =>
      rw [accumulate_cons_eq_ok_iff]
      constructor
      · intro given
        rcases given with ⟨image, first, later⟩
        rcases (reads accepted entry image).mp first with ⟨read, apart⟩
        rcases ih.mp later with ⟨added, rfl, related, pairwise, cross⟩
        refine ⟨image :: added, by simp, .cons read related, ?_, ?_⟩
        · refine .cons (fun other member => ?_) pairwise
          exact cross image (by simp) other member
        · intro earlier earlierMember other otherMember
          rcases List.mem_cons.mp otherMember with rfl | tailMember
          · exact apart earlier earlierMember
          · exact cross earlier (by simp [earlierMember]) other tailMember
      · intro given
        rcases given with ⟨added, rfl, related, pairwise, cross⟩
        cases related with
        | @cons _ image _ added read related =>
            rcases List.pairwise_cons.mp pairwise with ⟨headApart, tailPairwise⟩
            have apart : ∀ earlier ∈ accepted, Apart earlier image :=
              fun earlier member => cross earlier member image (by simp)
            refine ⟨image, (reads accepted entry image).mpr ⟨read, apart⟩, ?_⟩
            refine ih.mpr ⟨added, by simp, related, tailPairwise, ?_⟩
            intro earlier earlierMember other otherMember
            rcases List.mem_append.mp earlierMember with acceptedMember | single
            · exact cross earlier acceptedMember other (by simp [otherMember])
            · rw [List.mem_singleton.mp single]
              exact headApart other otherMember

/-- A whole section is accepted exactly if its entries are read one by one and the images
are compatible. -/
theorem StepReads.section_eq_ok_iff {step : List β → α → Except ε β}
    {Reads : α → β → Prop} {Apart : β → β → Prop} (reads : StepReads step Reads Apart)
    {entries : List α} {images : List β} :
    accumulate step [] entries = .ok images ↔
      List.Forall₂ Reads entries images ∧ images.Pairwise Apart := by
  rw [reads.accumulate_eq_ok_iff]
  constructor
  · intro given
    rcases given with ⟨added, rfl, related, pairwise, -⟩
    exact ⟨related, pairwise⟩
  · intro given
    rcases given with ⟨related, pairwise⟩
    exact ⟨images, rfl, related, pairwise, by simp⟩

/-- A section whose entries are read by a function, and whose images must differ in a key. -/
theorem StepReads.keyed_eq_ok_iff {step : List β → α → Except ε β} {Accepts : α → Prop}
    {image : α → β} (key : β → γ)
    (reads : StepReads step (fun entry read => Accepts entry ∧ read = image entry)
      (fun earlier later => key earlier ≠ key later))
    {entries : List α} {images : List β} :
    accumulate step [] entries = .ok images ↔
      (∀ entry ∈ entries, Accepts entry) ∧
        (entries.map fun entry => key (image entry)).Nodup ∧ images = entries.map image := by
  rw [reads.section_eq_ok_iff, forall₂_image_iff]
  constructor
  · intro given
    rcases given with ⟨⟨accepts, rfl⟩, pairwise⟩
    refine ⟨accepts, ?_, rfl⟩
    simpa [List.Nodup, List.pairwise_map] using pairwise
  · intro given
    rcases given with ⟨accepts, nodup, rfl⟩
    refine ⟨⟨accepts, rfl⟩, ?_⟩
    simpa [List.Nodup, List.pairwise_map] using nodup

/-- A section whose entries are read by a function, each without regard to the others. -/
theorem StepReads.free_eq_ok_iff {step : List β → α → Except ε β} {Accepts : α → Prop}
    {image : α → β}
    (reads : StepReads step (fun entry read => Accepts entry ∧ read = image entry)
      (fun _ _ => True))
    {entries : List α} {images : List β} :
    accumulate step [] entries = .ok images ↔
      (∀ entry ∈ entries, Accepts entry) ∧ images = entries.map image := by
  rw [reads.section_eq_ok_iff, forall₂_image_iff]
  simp [List.pairwise_iff_forall_sublist]

/-! ## The first failure -/

/-- The loop fails exactly at the first entry that a step refuses after it has accepted all
entries in front. -/
theorem accumulate_eq_error_iff {step : List β → α → Except ε β} {accepted : List β}
    {entries : List α} {failure : ε} :
    accumulate step accepted entries = .error failure ↔
      ∃ before entry after images, entries = before ++ entry :: after ∧
        accumulate step accepted before = .ok images ∧ step images entry = .error failure := by
  induction entries generalizing accepted with
  | nil => simp
  | cons first rest ih =>
      constructor
      · intro failed
        rw [accumulate] at failed
        cases stepped : step accepted first with
        | error refusal =>
            rw [stepped] at failed
            cases failed
            exact ⟨[], first, rest, accepted, rfl, rfl, stepped⟩
        | ok image =>
            rw [stepped] at failed
            rcases ih.mp failed with ⟨before, entry, after, images, rfl, inFront, refused⟩
            refine ⟨first :: before, entry, after, images, rfl, ?_, refused⟩
            exact accumulate_cons_eq_ok_iff.mpr ⟨image, stepped, inFront⟩
      · intro given
        rcases given with ⟨before, entry, after, images, whole, inFront, refused⟩
        rw [accumulate]
        cases before with
        | nil =>
            cases whole
            cases inFront
            rw [refused]
        | cons head before =>
            cases whole
            rcases accumulate_cons_eq_ok_iff.mp inFront with ⟨image, stepped, later⟩
            rw [stepped]
            exact ih.mpr ⟨before, entry, after, images, rfl, later, refused⟩

/-- A section whose images must differ in a key fails at the first entry that cannot be read or
whose key is taken. -/
theorem StepReads.keyed_eq_error_iff {step : List β → α → Except ε β} {Accepts : α → Prop}
    {image : α → β} (key : β → γ)
    (reads : StepReads step (fun entry read => Accepts entry ∧ read = image entry)
      (fun earlier later => key earlier ≠ key later))
    {entries : List α} {failure : ε} :
    accumulate step [] entries = .error failure ↔
      ∃ before entry after, entries = before ++ entry :: after ∧
        ((∀ earlier ∈ before, Accepts earlier) ∧
          (before.map fun earlier => key (image earlier)).Nodup) ∧
        step (before.map image) entry = .error failure := by
  rw [accumulate_eq_error_iff]
  constructor
  · intro given
    rcases given with ⟨before, entry, after, images, whole, inFront, refused⟩
    rcases (reads.keyed_eq_ok_iff key).mp inFront with ⟨accepts, nodup, rfl⟩
    exact ⟨before, entry, after, whole, ⟨accepts, nodup⟩, refused⟩
  · intro given
    rcases given with ⟨before, entry, after, whole, ⟨accepts, nodup⟩, refused⟩
    refine ⟨before, entry, after, before.map image, whole, ?_, refused⟩
    exact (reads.keyed_eq_ok_iff key).mpr ⟨accepts, nodup, rfl⟩

/-! ## What failures have in common -/

/-- Every failure of a check is as expected. -/
structure FailsWith (Expected : ε → Prop) (check : Except ε α) : Prop where
  expected : ∀ failure, check = .error failure → Expected failure

variable {Expected : ε → Prop}

theorem failsWith_ok (value : α) : FailsWith Expected (Except.ok value) := by
  constructor
  intro failure failed
  cases failed

theorem failsWith_error {failure : ε} (expected : Expected failure) :
    FailsWith Expected (Except.error failure : Except ε α) := by
  constructor
  intro other failed
  cases failed
  exact expected

/-- A later step may rely on what the first one has accepted. -/
theorem FailsWith.bind {first : Except ε α} {next : α → Except ε β}
    (fails : FailsWith Expected first)
    (later : ∀ value, first = .ok value → FailsWith Expected (next value)) :
    FailsWith Expected (first >>= next) := by
  constructor
  intro failure failed
  rcases bind_eq_error_iff.mp failed with failed | ⟨value, accepted, failed⟩
  · exact fails.expected failure failed
  · exact (later value accepted).expected failure failed

theorem FailsWith.map {first : Except ε α} (fails : FailsWith Expected first) (image : α → β) :
    FailsWith Expected (first.map image) := by
  constructor
  intro failure failed
  exact fails.expected failure (map_eq_error_iff.mp failed)

theorem FailsWith.refuse {condition : Prop} [Decidable condition] {failure : ε}
    {next : γ → Except ε β} {rest : Except ε β} (expected : Expected failure)
    (fails : FailsWith Expected rest) :
    FailsWith Expected (if condition then throw failure >>= next else rest) := by
  split
  · exact failsWith_error expected
  · exact fails

/-- The failure of a loop is a failure of one of its steps. -/
theorem FailsWith.accumulate {step : List β → α → Except ε β} {entries : List α}
    (fails : ∀ accepted, ∀ entry ∈ entries, FailsWith Expected (step accepted entry))
    (accepted : List β) : FailsWith Expected (accumulate step accepted entries) := by
  constructor
  intro failure failed
  rcases accumulate_eq_error_iff.mp failed with ⟨before, entry, after, images, rfl, -, refused⟩
  exact (fails images entry (by simp)).expected failure refused

end FleetCompose
