import Mathlib

/-! The reserved-tag check of span.cpp: `starts_with` over two string views, and
`is_internal_tag`, which asks it whether a tag name starts with the literal `"_dd."`.
`starts_with` calls the three-iterator `std::mismatch`, which walks the subject to its end
and reads the other view's memory as far, so a view is modelled with the bytes after it. -/

namespace DdTrace.Tracing

/-- A `std::string_view`: the first `size` bytes of `memory`. The rest of `memory` is what
lies after the view's end, such as the NUL that ends a string literal. -/
structure StringView where
  memory : List Char
  size : Nat
  size_le : size ≤ memory.length

namespace StringView

def toList (view : StringView) : List Char := view.memory.take view.size

def ofList (bytes : List Char) : StringView := ⟨bytes, bytes.length, le_rfl⟩

/-- The view a string literal converts to: its bytes, then its NUL terminator. -/
def literal (bytes : List Char) : StringView := ⟨bytes ++ ['\x00'], bytes.length, by simp⟩

@[simp] theorem length_toList (view : StringView) : view.toList.length = view.size := by
  simp [toList, view.size_le]

@[simp] theorem toList_ofList (bytes : List Char) : (ofList bytes).toList = bytes := by
  simp [toList, ofList]

@[simp] theorem toList_literal (bytes : List Char) : (literal bytes).toList = bytes := by
  simp [toList, literal]

end StringView

/-- Where `std::mismatch(first1, last1, first2)` stops: the length of the common run of
`range` and the bytes from `first2` on. Only the end of `range` bounds the walk; past the
end of `memory` the model stops as well, where a read would leave the object. -/
def mismatch : List Char → List Char → Nat
  | a :: range, b :: memory => if a = b then mismatch range memory + 1 else 0
  | _, _ => 0

def startsWith (subject prefixView : StringView) : Bool :=
  if prefixView.size > subject.size then false
  else mismatch subject.toList prefixView.memory == prefixView.size

def isInternalTag (tagName : List Char) : Bool :=
  startsWith (.ofList tagName) (.literal "_dd.".toList)

theorem mismatch_eq_iff {range memory : List Char} {n : Nat} (hn : n ≤ memory.length) :
    mismatch range memory = n ↔
      range.take n = memory.take n ∧ n ≤ range.length ∧
        mismatch (range.drop n) (memory.drop n) = 0 := by
  induction n generalizing range memory with
  | zero => simp
  | succ n ih =>
    obtain ⟨b, memory, rfl⟩ := List.exists_cons_of_length_pos (by omega : 0 < memory.length)
    cases range with
    | nil => simp [mismatch]
    | cons a range =>
      have ih := @ih range memory (by simpa using hn)
      rw [mismatch, List.take_succ_cons, List.take_succ_cons, List.drop_succ_cons,
        List.drop_succ_cons, List.cons.injEq, List.length_cons]
      by_cases hab : a = b
      · simp only [hab, ↓reduceIte, true_and, add_left_inj, add_le_add_iff_right, ih]
      · simp [hab]

theorem mismatch_singleton (range : List Char) (c : Char) :
    mismatch range [c] = 0 ↔ range.head? ≠ some c := by
  cases range with
  | nil => simp [mismatch]
  | cons a range => by_cases h : a = c <;> simp [mismatch, h]

/-- `starts_with` holds when the subject starts with the view and the byte after it differs
from the byte after the view's end: the three-iterator `std::mismatch` compares that one
too. -/
theorem startsWith_iff (subject prefixView : StringView) :
    startsWith subject prefixView = true ↔
      prefixView.toList <+: subject.toList ∧
        mismatch (subject.toList.drop prefixView.size) (prefixView.memory.drop prefixView.size) = 0 := by
  have hsize := prefixView.size_le
  rw [List.prefix_iff_eq_take, StringView.length_toList, StringView.toList, startsWith]
  split_ifs with hlt
  · simp only [Bool.false_eq_true, false_iff, not_and]
    intro htake
    have := congrArg List.length htake
    simp only [List.length_take, StringView.length_toList] at this
    omega
  · have hle : prefixView.size ≤ subject.size := by omega
    rw [beq_iff_eq, mismatch_eq_iff hsize, @eq_comm _ (List.take _ prefixView.memory)]
    simp [hle]

/-- A tag name is internal when it starts with `"_dd."` and its fifth byte, if it has one,
is not NUL: the literal's terminator takes part in the comparison. -/
theorem isInternalTag_iff (tagName : List Char) :
    isInternalTag tagName = true ↔ "_dd.".toList <+: tagName ∧ tagName[4]? ≠ some '\x00' := by
  rw [isInternalTag, startsWith_iff, StringView.toList_ofList, StringView.toList_literal]
  have hmemory : (StringView.literal "_dd.".toList).memory.drop
      (StringView.literal "_dd.".toList).size = ['\x00'] := rfl
  rw [hmemory, mismatch_singleton, List.head?_drop]
  rfl

theorem isInternalTag_reserved_nul :
    "_dd.".toList <+: "_dd.\x00".toList ∧ isInternalTag "_dd.\x00".toList = false :=
  ⟨⟨['\x00'], rfl⟩, by decide⟩

end DdTrace.Tracing
