import CrashCapture.Handler.Launch
import Mathlib.Data.List.Basic

namespace CrashCapture

namespace Path

theorem isAbsolute_iff {p : Path} : p.isAbsolute = true ↔ ∃ cs, p.toList = '/' :: cs := by
  unfold isAbsolute
  rw [decide_eq_true_iff, List.head?_eq_some_iff]

theorem isAbsolute_append {p : Path} (h : p.isAbsolute = true) (q : String) :
    Path.isAbsolute (p ++ q) = true := by
  obtain ⟨cs, hcs⟩ := isAbsolute_iff.1 h
  refine isAbsolute_iff.2 ⟨cs ++ q.toList, ?_⟩
  rw [String.toList_append, hcs, List.cons_append]

theorem isAbsolute_join {base : Path} (h : base.isAbsolute = true) (rest : Path) :
    (join base rest).isAbsolute = true := by
  unfold join
  split
  · assumption
  · split
    · exact isAbsolute_append h rest
    · exact isAbsolute_append (isAbsolute_append h "/") rest

theorem isAbsolute_of_absolute? {directory p path : Path} (rooted : directory.isAbsolute = true)
    (h : absolute? directory p = some path) : path.isAbsolute = true := by
  have hslashes (n : Nat) : Path.isAbsolute (if n = 2 then "//" else "/") = true := by
    split <;> rfl
  simp only [absolute?] at h
  split at h
  · cases h
  · generalize hbody : (if isAbsolute p = true then _ else _ : Path) = body at h
    have habsolute : body.isAbsolute = true := by
      subst hbody
      split
      · exact isAbsolute_append (hslashes _) _
      · split
        · exact rooted
        · exact isAbsolute_join rooted _
    split at h
    · cases h
      exact isAbsolute_append habsolute "/"
    · cases h
      exact habsolute

theorem ne_empty {p : Path} (h : p.isAbsolute = true) : p ≠ "" := by
  rintro rfl
  exact absurd h (by decide)

theorem join_ne_empty (base : Path) {rest : Path} (h : rest ≠ "") : join base rest ≠ "" := by
  unfold join
  split
  · exact h
  · split <;> simp [h]

end Path

theorem Handler.isAbsolute_of_resolve {options : Options} {executable path : Path}
    {files : FileTree} (h : resolve options executable files = .ok path) :
    path.isAbsolute = true := by
  have hrooted : Path.isAbsolute ("/" ++ "/".intercalate files.workingDirectory) = true :=
    Path.isAbsolute_append rfl _
  have hfound {candidate path' : Path}
      (hpath : Path.absolute? ("/" ++ "/".intercalate files.workingDirectory) candidate =
        some path')
      (h : (if files.isFile path' = true then .ok path' else .error (.invalidHandlerPath path')) =
        (.ok path : Except Error Path)) : path.isAbsolute = true := by
    split at h
    · cases h
      exact Path.isAbsolute_of_absolute? hrooted hpath
    · cases h
  unfold resolve at h
  split at h
  · dsimp only [bind, Except.bind] at h
    split at h
    · cases h
    · next hpath => exact hfound hpath h
  · dsimp only [bind, Except.bind] at h
    split at h
    · cases h
    · next hpath => exact hfound hpath h
  · cases h

end CrashCapture
