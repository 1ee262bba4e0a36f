import Mathlib.Data.List.TakeWhile

namespace Mesty.Refinement.DotSegments

/-- The last segment of the output goes, with the slash before it. -/
def removeLast (out : List Char) : List Char := ((out.reverse.dropWhile (· ≠ '/')).drop 1).reverse

/-- The loop of RFC 3986, 5.2.4 over its input and its output buffer. -/
def remove : List Char → List Char → List Char
  | [], out => out
  | '.' :: '.' :: '/' :: input, out => remove input out
  | '.' :: '/' :: input, out => remove input out
  | '/' :: '.' :: '/' :: input, out => remove ('/' :: input) out
  | ['/', '.'], out => remove ['/'] out
  | '/' :: '.' :: '.' :: '/' :: input, out => remove ('/' :: input) (removeLast out)
  | ['/', '.', '.'], out => remove ['/'] (removeLast out)
  | ['.'], out => remove [] out
  | ['.', '.'], out => remove [] out
  | c :: input, out =>
    remove (input.dropWhile (· ≠ '/')) (out ++ c :: input.takeWhile (· ≠ '/'))
termination_by input => input.length
decreasing_by all_goals grind [List.length_dropWhile_le]

def removeDotSegments (path : String) : String := String.ofList (remove path.toList [])

/-- A segment that is not removed. -/
structure Plain (seg : List Char) : Prop where
  slash : '/' ∉ seg
  dot : seg ≠ ['.']
  dotdot : seg ≠ ['.', '.']

/-- Segments, each with the slash before it. -/
def slashed (segs : List (List Char)) : List Char := segs.flatMap ('/' :: ·)

/-- Where a segment may end. -/
def AtSlash (input : List Char) : Prop := ∀ c ∈ input.head?, c = '/'

section Segments

variable {seg dir input out : List Char} {segs : List (List Char)}

theorem atSlash_cons : AtSlash ('/' :: input) := by
  rintro _ ⟨⟩
  rfl

theorem atSlash_nil : AtSlash [] := by
  rintro _ ⟨⟩

theorem AtSlash.slashed_append (h : AtSlash input) : AtSlash (slashed segs ++ input) := by
  cases segs with
  | nil => exact h
  | cons seg segs => exact atSlash_cons

theorem takeWhile_segment (hseg : '/' ∉ seg) (h : AtSlash input) :
    (seg ++ input).takeWhile (· ≠ '/') = seg := by
  have hall : ∀ c ∈ seg, decide (c ≠ '/') = true := fun c hc =>
    decide_eq_true fun heq => hseg (heq ▸ hc)
  rw [List.takeWhile_append_of_pos hall]
  cases input with
  | nil => exact List.append_nil seg
  | cons c input =>
    obtain rfl := h c rfl
    exact List.append_nil seg

theorem dropWhile_segment (hseg : '/' ∉ seg) (h : AtSlash input) :
    (seg ++ input).dropWhile (· ≠ '/') = input := by
  have hall : ∀ c ∈ seg, decide (c ≠ '/') = true := fun c hc =>
    decide_eq_true fun heq => hseg (heq ▸ hc)
  rw [List.dropWhile_append_of_pos hall]
  cases input with
  | nil => rfl
  | cons c input =>
    obtain rfl := h c rfl
    rfl

theorem remove_segment (hseg : Plain seg) (h : AtSlash input) :
    remove ('/' :: (seg ++ input)) out = remove input (out ++ '/' :: seg) := by
  have htake := takeWhile_segment hseg.slash h
  have hdrop := dropWhile_segment hseg.slash h
  generalize hpath : seg ++ input = path at htake hdrop
  have hdot (rest : List Char) : path ≠ '.' :: '/' :: rest := by
    rintro rfl
    exact hseg.dot htake.symm
  have hdotdot (rest : List Char) : path ≠ '.' :: '.' :: '/' :: rest := by
    rintro rfl
    exact hseg.dotdot htake.symm
  have hdotEnd : path ≠ ['.'] := by
    rintro rfl
    exact hseg.dot htake.symm
  have hdotdotEnd : path ≠ ['.', '.'] := by
    rintro rfl
    exact hseg.dotdot htake.symm
  rw [remove, hdrop, htake]
  all_goals simp [hdot, hdotdot, hdotEnd, hdotdotEnd]

theorem remove_slash : remove ['/'] out = out ++ ['/'] := by
  simp [remove]

/-- The first segment of a relative path. -/
theorem remove_first {c : Char} (hseg : Plain (c :: seg)) (h : AtSlash input) :
    remove (c :: (seg ++ input)) [] = remove input (c :: seg) := by
  obtain ⟨hc, hslash⟩ := not_or.mp (mt List.mem_cons.mpr hseg.slash)
  have htake := takeWhile_segment hslash h
  have hdrop := dropWhile_segment hslash h
  generalize hpath : seg ++ input = path at htake hdrop
  have hdot (rest : List Char) : c = '.' → path ≠ '/' :: rest := by
    rintro rfl rfl
    exact hseg.dot (congrArg _ htake.symm)
  have hdotdot (rest : List Char) : c = '.' → path ≠ '.' :: '/' :: rest := by
    rintro rfl rfl
    exact hseg.dotdot (congrArg _ htake.symm)
  have hdotEnd : c = '.' → path ≠ [] := by
    rintro rfl rfl
    exact hseg.dot (congrArg _ htake.symm)
  have hdotdotEnd : c = '.' → path ≠ ['.'] := by
    rintro rfl rfl
    exact hseg.dotdot (congrArg _ htake.symm)
  have hne : c ≠ '/' := Ne.symm hc
  rw [remove, hdrop, htake, List.nil_append]
  all_goals simp_all

theorem removeLast_append (hseg : '/' ∉ seg) : removeLast (out ++ '/' :: seg) = out := by
  have hback : (out ++ '/' :: seg).reverse = seg.reverse ++ '/' :: out.reverse := by simp
  rw [removeLast, hback, dropWhile_segment (mt List.mem_reverse.mp hseg) atSlash_cons,
    List.drop_one, List.tail_cons, List.reverse_reverse]

/-- Segments that are not removed reach the output. -/
theorem remove_slashed (hsegs : ∀ seg ∈ segs, Plain seg) (h : AtSlash input) :
    remove (slashed segs ++ input) out = remove input (out ++ slashed segs) := by
  induction segs generalizing out with
  | nil => rw [slashed, List.flatMap_nil, List.nil_append, List.append_nil]
  | cons seg segs ih =>
    obtain ⟨hseg, hrest⟩ := List.forall_mem_cons.mp hsegs
    have hcons : slashed (seg :: segs) = '/' :: (seg ++ slashed segs) := rfl
    rw [hcons, List.cons_append, List.append_assoc, remove_segment hseg h.slashed_append, ih hrest,
      List.append_assoc, List.cons_append]

section Paths

variable {c : Char} (hfirst : Plain (c :: seg)) (hsegs : ∀ seg ∈ segs, Plain seg)
include hfirst hsegs

theorem remove_folders (h : AtSlash input) :
    remove (c :: seg ++ slashed segs ++ input) [] = remove input (c :: seg ++ slashed segs) := by
  rw [List.append_assoc, List.cons_append, remove_first hfirst h.slashed_append,
    remove_slashed hsegs h]

/-- A path without dot segments stays as it is. -/
theorem remove_plain : remove (c :: seg ++ slashed segs) [] = c :: seg ++ slashed segs := by
  have h : remove (c :: seg ++ slashed segs ++ []) [] = remove [] (c :: seg ++ slashed segs) :=
    remove_folders hfirst hsegs atSlash_nil
  rwa [List.append_nil, remove] at h

theorem remove_dot :
    remove (c :: seg ++ slashed segs ++ ['/', '.']) [] = c :: seg ++ slashed segs ++ ['/'] := by
  rw [remove_folders hfirst hsegs atSlash_cons, remove]
  exact remove_slash

theorem remove_dotdot (hdir : Plain dir) :
    remove (c :: seg ++ slashed (segs ++ [dir]) ++ ['/', '.', '.']) [] =
      c :: seg ++ slashed segs ++ ['/'] := by
  have hall : ∀ seg ∈ segs ++ [dir], Plain seg :=
    List.forall_mem_append.mpr ⟨hsegs, List.forall_mem_singleton.mpr hdir⟩
  have hlast : c :: seg ++ slashed (segs ++ [dir]) = c :: seg ++ slashed segs ++ '/' :: dir := by
    simp [slashed]
  rw [remove_folders hfirst hall atSlash_cons, remove, hlast, removeLast_append hdir.slash]
  exact remove_slash

end Paths

example : removeDotSegments "mid/content=5/../6" = "mid/6" := by
  simp [removeDotSegments, remove, removeLast]

end Segments

end Mesty.Refinement.DotSegments
