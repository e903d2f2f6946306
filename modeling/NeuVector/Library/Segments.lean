import Mathlib.Algebra.GroupWithZero.Nat
import Mathlib.Data.List.Pairwise
import Mathlib.Data.List.Perm.Basic

/-!
# Segments of a byte range

Segments are values with a start and a size.  Segments that lie in order
inside a range without overlapping, and whose sizes add up to the range, leave
no gap.  Copying their contents into a buffer then determines every byte of
the range.
-/

namespace NeuVector.Library

open List

namespace Segments

variable {α β : Type}

section Sizes

variable (start size : α → Nat)

def total : List α → Nat
  | [] => 0
  | value :: rest => size value + total rest

/-- Every segment ends before the later ones start. -/
def Apart (values : List α) : Prop :=
  values.Pairwise fun first second => start first + size first ≤ start second

/-- One of the segments ends before the other starts. -/
def Separate (first second : α) : Prop :=
  start first + size first ≤ start second ∨ start second + size second ≤ start first

instance (first second : α) : Decidable (Separate start size first second) :=
  inferInstanceAs (Decidable (_ ∨ _))

/-- The segments follow one another from the first offset to the last. -/
def Chain (low high : Nat) : List α → Prop
  | [] => low = high
  | value :: rest => start value = low ∧ Chain (low + size value) high rest

end Sizes

variable {values : List α} {index : Nat}

section Covering

variable {start size : α → Nat}

theorem takeWhile_eq_filter_iff (test : α → Bool) (items : List α) :
    items.dropWhile test = items.filter (fun item => !test item) ∧
      items.takeWhile test = items.filter test ↔
        items.Pairwise fun first later => test later = true → test first = true := by
  induction items with
  | nil => simp
  | cons item rest induction =>
    rw [pairwise_cons]
    cases here : test item with
    | true => simpa [here] using induction
    | false =>
      simp only [here, takeWhile_cons, dropWhile_cons, filter_cons, Bool.not_false, if_true,
        Bool.false_eq_true, if_false, imp_false, cons.injEq, true_and]
      constructor
      · rintro ⟨_, none⟩
        have later := filter_eq_nil_iff.mp none.symm
        refine ⟨later, pairwise_of_forall_mem_list ?_⟩
        exact fun _ _ other member ends => absurd ends (later other member)
      · rintro ⟨later, _⟩
        exact ⟨(filter_eq_self.mpr (by simpa using later)).symm, (filter_eq_nil_iff.mpr later).symm⟩

theorem total_eq_sum (values : List α) : total size values = (values.map size).sum := by
  induction values with
  | nil => rfl
  | cons value rest induction => rw [total, induction, map_cons, sum_cons]

theorem total_perm {first second : List α} (perm : first.Perm second) :
    total size first = total size second := by
  rw [total_eq_sum, total_eq_sum]
  exact (perm.map size).sum_nat

theorem total_append (front back : List α) :
    total size (front ++ back) = total size front + total size back := by
  simp [total_eq_sum]

theorem total_map {γ : Type} (image : γ → α) (values : List γ) :
    total size (values.map image) = total (fun value => size (image value)) values := by
  simp [total_eq_sum, Function.comp_def]

theorem Separate.symm {first second : α} (separate : Separate start size first second) :
    Separate start size second first := Or.symm separate

theorem apart_of_separate (ordered : values.Pairwise fun first second => start first < start second)
    (separate : values.Pairwise (Separate start size)) :
    Apart start size values := by
  refine List.Pairwise.imp₂ ?_ ordered separate
  intro first second before either
  rcases either with ends | overtakes
  · exact ends
  · omega

theorem apart_of_perm {value : α} {inserted : List α} (apart : Apart start size values)
    (separate : ∀ other ∈ values, Separate start size value other)
    (perm : inserted.Perm (value :: values))
    (ordered : inserted.Pairwise fun first second =>
      start first < start second) : Apart start size inserted := by
  have before : values.Pairwise (Separate start size) :=
    List.Pairwise.imp (fun ends => Or.inl ends) apart
  have all : (value :: values).Pairwise (Separate start size) :=
    pairwise_cons.mpr ⟨separate, before⟩
  exact apart_of_separate ordered ((perm.pairwise_iff fun between => between.symm).mpr all)

variable {low high : Nat}

theorem total_le (apart : Apart start size values) (range : low ≤ high)
    (lower : ∀ value ∈ values, low ≤ start value)
    (upper : ∀ value ∈ values, start value + size value ≤ high) :
    low + total size values ≤ high := by
  induction values generalizing low with
  | nil => simpa [total] using range
  | cons value rest induction =>
    obtain ⟨before, restApart⟩ := pairwise_cons.mp apart
    have starts := lower value mem_cons_self
    obtain ⟨ends, later⟩ := forall_mem_cons.mp upper
    have tail := induction restApart ends before
      later
    simp only [total] at tail ⊢
    omega

theorem chain_of_total (apart : Apart start size values)
    (lower : ∀ value ∈ values, low ≤ start value)
    (upper : ∀ value ∈ values, start value + size value ≤ high)
    (filled : low + total size values = high) :
    Chain start size low high values := by
  induction values generalizing low with
  | nil => simpa [Chain, total] using filled
  | cons value rest induction =>
    obtain ⟨before, restApart⟩ := pairwise_cons.mp apart
    have starts := lower value mem_cons_self
    obtain ⟨ends, later⟩ := forall_mem_cons.mp upper
    have restUpper : ∀ other ∈ rest, start other + size other ≤ high :=
      later
    have tail := total_le restApart ends before restUpper
    simp only [total] at filled
    have exact : start value = low := by omega
    refine ⟨exact, ?_⟩
    rw [← exact]
    apply induction restApart before restUpper
    omega

section

variable (chain : Chain start size low high values)
include chain

theorem Chain.le : low ≤ high := by
  induction values generalizing low with
  | nil => exact Nat.le_of_eq chain
  | cons value rest induction =>
    have tail := induction chain.2
    omega

theorem Chain.lower : ∀ value ∈ values, low ≤ start value := by
  induction values generalizing low with
  | nil => exact fun _ member => absurd member not_mem_nil
  | cons head rest induction =>
    intro value member
    rcases mem_cons.mp member with rfl | later
    · exact Nat.le_of_eq chain.1.symm
    · exact Nat.le_trans (Nat.le_add_right _ _) (induction chain.2 value later)

theorem Chain.upper : ∀ value ∈ values, start value + size value ≤ high := by
  induction values generalizing low with
  | nil => exact fun _ member => absurd member not_mem_nil
  | cons head rest induction =>
    intro value member
    rcases mem_cons.mp member with rfl | later
    · rw [chain.1]
      exact chain.2.le
    · exact induction chain.2 value later

theorem Chain.apart : Apart start size values := by
  induction values generalizing low with
  | nil => exact List.Pairwise.nil
  | cons head rest induction =>
    apply pairwise_cons.mpr
    refine ⟨?_, induction chain.2⟩
    intro value member
    rw [chain.1]
    exact chain.2.lower value member

theorem Chain.total_eq : low + total size values = high := by
  induction values generalizing low with
  | nil => exact chain
  | cons head rest induction =>
    have tail := induction chain.2
    simp only [total]
    omega

theorem Chain.shift {origin : Nat} (behind : origin ≤ low) :
    Chain (fun value => start value - origin) size (low - origin) (high - origin) values := by
  induction values generalizing low with
  | nil =>
    have same : low = high := chain
    subst same
    rfl
  | cons value rest induction =>
    have here : start value = low := chain.1
    have tail := induction chain.2 (Nat.le_add_right_of_le behind)
    have moved : low + size value - origin = low - origin + size value := by omega
    rw [moved] at tail
    exact ⟨congrArg (· - origin) here, tail⟩

end

theorem chain_map {f : β → α} {values : List β} :
    Chain start size low high (values.map f) ↔
      Chain (fun value => start (f value)) (fun value => size (f value)) low high values := by
  induction values generalizing low with
  | nil => exact Iff.rfl
  | cons value rest induction => exact and_congr Iff.rfl induction

theorem Chain.split {front back : List α} (chain : Chain start size low high (front ++ back)) :
    ∃ middle, Chain start size low middle front ∧ Chain start size middle high back := by
  induction front generalizing low with
  | nil => exact ⟨low, rfl, chain⟩
  | cons head rest induction =>
    obtain ⟨middle, first, second⟩ := induction chain.2
    exact ⟨middle, ⟨chain.1, first⟩, second⟩

theorem Chain.ends (chain : Chain start size low high values) (nonempty : values ≠ []) :
    ∃ value ∈ values, start value + size value = high := by
  induction values generalizing low with
  | nil => exact absurd rfl nonempty
  | cons head rest induction =>
    by_cases empty : rest = []
    · subst empty
      refine ⟨head, mem_cons_self, ?_⟩
      rw [chain.1]
      exact chain.2
    · obtain ⟨value, member, reaches⟩ := induction chain.2 empty
      exact ⟨value, mem_cons_of_mem _ member, reaches⟩

theorem Apart.exists_run {value : α} (apart : Apart start size (value :: values)) :
    ∃ high run rest, values = run ++ rest ∧ Chain start size (start value) high (value :: run) ∧
      ∀ next ∈ rest.head?, high < start next := by
  induction values generalizing value with
  | nil => exact ⟨_, [], [], rfl, ⟨rfl, rfl⟩, nofun⟩
  | cons next later induction =>
    obtain ⟨before, restApart⟩ := pairwise_cons.mp apart
    by_cases gap : start value + size value < start next
    · refine ⟨_, [], next :: later, rfl, ⟨rfl, rfl⟩, ?_⟩
      rintro _ ⟨⟩
      exact gap
    · obtain ⟨high, run, rest, rfl, chain, behind⟩ := induction restApart
      have ends := before next mem_cons_self
      have here : start next = start value + size value := by omega
      rw [here] at chain
      exact ⟨high, next :: run, rest, rfl, ⟨rfl, chain⟩, behind⟩

theorem Apart.unique (apart : Apart start size values) {one other : α}
    (oneMember : one ∈ values) (otherMember : other ∈ values)
    (oneCovers : start one ≤ index ∧ index < start one + size one)
    (otherCovers : start other ≤ index ∧ index < start other + size other) :
    one = other := by
  induction values with
  | nil => exact absurd oneMember not_mem_nil
  | cons head rest induction =>
    obtain ⟨before, restApart⟩ := pairwise_cons.mp apart
    rcases mem_cons.mp oneMember with rfl | oneLater
    · rcases mem_cons.mp otherMember with otherHead | otherLater
      · rw [otherHead]
      · have ends := before other otherLater
        omega
    · rcases mem_cons.mp otherMember with rfl | otherLater
      · have ends := before one oneLater
        omega
      · exact induction restApart oneLater otherLater

theorem Apart.nodup (apart : Apart start size values)
    (filled : ∀ value ∈ values, 0 < size value) : values.Nodup := by
  refine List.Pairwise.imp_of_mem ?_ apart
  intro first second member _ ends same
  have positive := filled first member
  rw [same] at ends positive
  omega

end Covering

def overwrite (buffer : Nat → β) (offset : Nat) (data : List β) : Nat → β :=
  fun index =>
    if offset ≤ index then (data[index - offset]?).getD (buffer index)
    else buffer index

theorem overwrite_inside {buffer : Nat → β} {offset : Nat} {data : List β}
    {index : Nat} (low : offset ≤ index) (high : index < offset + data.length) :
    data[index - offset]? = some (overwrite buffer offset data index) := by
  unfold overwrite
  rw [if_pos low]
  have inside : index - offset < data.length := by omega
  rw [getElem?_eq_getElem inside]
  rfl

theorem overwrite_outside {buffer : Nat → β} {offset : Nat} {data : List β}
    (outside : index < offset ∨ offset + data.length ≤ index) :
    overwrite buffer offset data index = buffer index := by
  unfold overwrite
  split
  · have beyond : data.length ≤ index - offset := by omega
    rw [getElem?_eq_none beyond]
    rfl
  · rfl

theorem overwrite_range (buffer : Nat → β) (offset : Nat) (data : List β) :
    (range' offset data.length).map (overwrite buffer offset data) = data := by
  apply ext_getElem
  · simp
  · intro index _ inside
    simp [overwrite, inside]

section Copying

variable {start : α → Nat} {data : α → List β}

def copyAll (start : α → Nat) (data : α → List β) (buffer : Nat → β) (values : List α) : Nat → β :=
  values.foldl (fun buffer value => overwrite buffer (start value) (data value)) buffer

variable {low high : Nat}

section

variable (chain : Chain start (fun value => (data value).length) low high values)
include chain

theorem copyAll_below (buffer : Nat → β) (below : index < low) :
    copyAll start data buffer values index = buffer index := by
  induction values generalizing low buffer with
  | nil => rfl
  | cons value rest induction =>
    have here : start value = low := chain.1
    calc
      copyAll start data buffer (value :: rest) index =
          overwrite buffer (start value) (data value) index :=
        induction chain.2 _ (Nat.lt_of_lt_of_le below (Nat.le_add_right _ _))
      _ = buffer index := overwrite_outside (Or.inl (by omega))

theorem copyAll_covered (buffer : Nat → β) (above : low ≤ index) (below : index < high) :
    ∃ value ∈ values, (start value ≤ index ∧ index < start value + (data value).length) ∧
      (data value)[index - start value]? = some (copyAll start data buffer values index) := by
  induction values generalizing low buffer with
  | nil =>
    have same : low = high := chain
    omega
  | cons value rest induction =>
    have here : start value = low := chain.1
    by_cases inside : index < low + (data value).length
    · refine ⟨value, mem_cons_self, by omega, ?_⟩
      have kept : copyAll start data buffer (value :: rest) index =
          overwrite buffer (start value) (data value) index :=
        copyAll_below chain.2 _ inside
      rw [kept]
      exact overwrite_inside (by omega) (by omega)
    · obtain ⟨found, member, covers, equality⟩ :=
        induction chain.2 (overwrite buffer (start value) (data value)) (Nat.le_of_not_lt inside)
      exact ⟨found, mem_cons_of_mem _ member, covers, equality⟩

end

theorem copyAll_flatMap {values : List α}
    (chain : Chain start (fun value => (data value).length) low high values) (buffer : Nat → β) :
    (range' low (high - low)).map (copyAll start data buffer values) =
      values.flatMap data := by
  induction values generalizing low buffer with
  | nil =>
    have same : low = high := chain
    subst same
    simp
  | cons value rest induction =>
    have here : start value = low := chain.1
    have tail : low + (data value).length ≤ high := chain.2.le
    have sizes : high - low = (data value).length + (high - (low + (data value).length)) := by omega
    have front : (range' low (data value).length).map
        (copyAll start data buffer (value :: rest)) = data value := by
      refine Eq.trans (map_congr_left fun index inside => ?_) (overwrite_range buffer low _)
      rw [← here]
      exact copyAll_below chain.2 _ (mem_range'_1.mp inside).2
    rw [sizes, ← range'_append_1, map_append, front]
    exact congrArg (data value ++ ·) (induction chain.2 _)

end Copying

end Segments

end NeuVector.Library
