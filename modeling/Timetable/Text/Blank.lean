/-! Blanks are the characters with the Unicode property White_Space, so a byte order mark is part of a word.
-/

namespace Timetable.Text

def isBlank (c : Char) : Bool :=
  let n := c.toNat
  (0x09 ≤ n && n ≤ 0x0D) || n == 0x20 || n == 0x85 || n == 0xA0 || n == 0x1680 ||
    (0x2000 ≤ n && n ≤ 0x200A) || n == 0x2028 || n == 0x2029 || n == 0x202F || n == 0x205F ||
    n == 0x3000

def words (cs : List Char) : List (List Char) :=
  (cs.splitOnP isBlank).filter (! ·.isEmpty)

def trimEnd (cs : List Char) : List Char :=
  cs.foldr (fun c r => if isBlank c && r.isEmpty then [] else c :: r) []

def trim (cs : List Char) : List Char := trimEnd (cs.dropWhile isBlank)

@[simp] theorem words_nil : words [] = [] := by simp [words]

theorem words_cons_blank {c : Char} (h : isBlank c = true) (cs : List Char) :
    words (c :: cs) = words cs := by
  simp [words, List.splitOnP_cons_eq_if_modifyHead, h]

theorem words_append_blank {c : Char} (h : isBlank c = true) (xs cs : List Char) :
    words (xs ++ c :: cs) = words xs ++ words cs := by
  simp [words, List.splitOnP_append_cons _ _ h]

theorem words_of_forall {w : List Char} (hw : w ≠ []) (h : ∀ c ∈ w, isBlank c = false) :
    words w = [w] := by
  simp [words, List.splitOnP_eq_singleton h, hw]

end Timetable.Text
