import Responder.Remote.Decoder

/-!
# Frames of bytes that go on

The bytes after the last complete frame are all that is needed to go on: cutting them
together with what follows gives the frames that are left. A separator that is found stays
the first one however the bytes go on, although the two kinds of separators share bytes.
-/

namespace Responder.Remote

/-- Whether bytes begin with an empty line. -/
def startsBlank (x : List UInt8) : Bool := [10, 10].isPrefixOf x || [13, 10, 13, 10].isPrefixOf x

theorem splitFrames_cons {b : UInt8} {rest : List UInt8} (h : startsBlank (b :: rest) = false) :
    splitFrames (b :: rest) =
      match splitFrames rest with
      | ([], tail) => ([], b :: tail)
      | (frame :: frames, tail) => ((b :: frame) :: frames, tail) := by
  have notLf : ∀ more, b = 10 → rest = 10 :: more → False := by
    rintro more rfl rfl
    simp [startsBlank] at h
  have notCrLf : ∀ more, b = 13 → rest = 10 :: 13 :: 10 :: more → False := by
    rintro more rfl rfl
    simp [startsBlank] at h
  exact splitFrames.eq_4 b rest notLf notCrLf

/-- Without a complete frame all bytes are left. -/
theorem tail_of_no_frame (x : List UInt8) (h : (splitFrames x).1 = []) : (splitFrames x).2 = x := by
  fun_induction splitFrames x with
  | case1 => rfl
  | case2 => cases h
  | case3 => cases h
  | case4 b rest _ _ tail eq ih =>
    rw [eq] at ih
    exact congrArg (b :: ·) (ih rfl)
  | case5 => cases h

/-- Where a frame is complete in `rest`, a byte before it begins no separator that ends
after `rest`. -/
theorem startsBlank_append {b : UInt8} {rest y : List UInt8}
    (h : startsBlank (b :: rest) = false) (framed : (splitFrames rest).1 ≠ []) :
    startsBlank (b :: (rest ++ y)) = false := by
  have single (c : UInt8) : splitFrames [c] = ([], [c]) := by
    rw [splitFrames_cons (by simp [startsBlank, List.isPrefixOf])]
    rfl
  -- Three bytes after `b` decide; with fewer of them, only an empty line is a frame.
  obtain _ | ⟨c, _ | ⟨d, _ | ⟨e, more⟩⟩⟩ := rest
  · exact absurd rfl framed
  · rw [single] at framed
    exact absurd rfl framed
  · by_cases blank : startsBlank [c, d] = true
    · have both : 10 = c ∧ 10 = d := by simpa [startsBlank, List.isPrefixOf] using blank
      obtain ⟨rfl, rfl⟩ := both
      simpa [startsBlank, List.isPrefixOf] using h
    · rw [splitFrames_cons (Bool.eq_false_iff.2 blank), single] at framed
      exact absurd rfl framed
  · simpa [startsBlank, List.isPrefixOf] using h

/-- Cutting goes on with the bytes after the last frame. -/
theorem splitFrames_append (x y : List UInt8) :
    splitFrames (x ++ y) =
      ((splitFrames x).1 ++ (splitFrames ((splitFrames x).2 ++ y)).1,
        (splitFrames ((splitFrames x).2 ++ y)).2) := by
  fun_induction splitFrames x with
  | case1 => rfl
  | case2 rest frames tail eq ih =>
    rw [eq] at ih
    simp only [List.cons_append, splitFrames, ih]
  | case3 rest frames tail eq ih =>
    rw [eq] at ih
    simp only [List.cons_append, splitFrames, ih]
  | case4 b rest _ _ tail eq ih =>
    have whole : tail = rest := by
      have left := tail_of_no_frame rest
      rw [eq] at left
      exact left rfl
    rw [whole]
    rfl
  | case5 b rest notLf notCrLf frame frames tail eq ih =>
    rw [eq] at ih
    have plain : startsBlank (b :: rest) = false := by
      rw [Bool.eq_false_iff]
      intro blank
      simp only [startsBlank, Bool.or_eq_true, List.isPrefixOf_iff_prefix] at blank
      obtain ⟨more, same⟩ | ⟨more, same⟩ := blank
      · cases same
        exact notLf more rfl rfl
      · cases same
        exact notCrLf more rfl rfl
    have framed : (splitFrames rest).1 ≠ [] := by
      rw [eq]
      exact List.cons_ne_nil _ _
    rw [List.cons_append, splitFrames_cons (startsBlank_append plain framed), ih]
    rfl

/-- The bytes that are left hold no complete frame. -/
theorem splitFrames_tail (x : List UInt8) :
    splitFrames (splitFrames x).2 = ([], (splitFrames x).2) := by
  have same := splitFrames_append x []
  simp only [List.append_nil] at same
  have none : (splitFrames (splitFrames x).2).1 = [] := by
    simpa using congrArg Prod.fst same
  exact Prod.ext none (tail_of_no_frame _ none)

end Responder.Remote
