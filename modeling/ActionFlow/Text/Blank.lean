/-!
# Blank characters and trimming

The characters with the Unicode property White_Space, and `trim`, which removes them from both
ends of a text and from nowhere else.
-/
namespace ActionFlow.Text

/-- The code points with the property White_Space. -/
def isBlank (c : Char) : Bool :=
  let code := c.toNat
  (9 ≤ code && code ≤ 13) || code == 0x20 || code == 0x85 || code == 0xa0 || code == 0x1680 ||
    (0x2000 ≤ code && code ≤ 0x200a) || code == 0x2028 || code == 0x2029 || code == 0x202f ||
    code == 0x205f || code == 0x3000

def trimChars (cs : List Char) : List Char :=
  (((cs.dropWhile isBlank).reverse).dropWhile isBlank).reverse

def trim (s : String) : String :=
  String.ofList (trimChars s.toList)

/-- A text of blanks only, the empty text included. -/
def isBlankText (s : String) : Bool :=
  s.toList.all isBlank

/-! ### What is left after trimming -/

theorem dropWhile_eq_nil_iff_all (p : Char → Bool) (cs : List Char) :
    cs.dropWhile p = [] ↔ cs.all p = true := by
  induction cs with
  | nil => simp
  | cons c cs ih => by_cases h : p c <;> simp [h, ih]

theorem trimChars_eq_nil_iff (cs : List Char) : trimChars cs = [] ↔ cs.all isBlank = true := by
  constructor
  · intro h
    have h' : ((cs.dropWhile isBlank).reverse).dropWhile isBlank = [] := by
      simpa [trimChars] using h
    rw [dropWhile_eq_nil_iff_all, List.all_reverse] at h'
    cases hd : cs.dropWhile isBlank with
    | nil => exact (dropWhile_eq_nil_iff_all _ _).1 hd
    | cons c rest =>
      have hc : isBlank c = true := by
        rw [hd] at h'
        exact (List.all_eq_true.1 h') c (by simp)
      have hn := List.head_dropWhile_not isBlank (l := cs) (by simp [hd])
      simp [hd, hc] at hn
  · intro h
    have h' := (dropWhile_eq_nil_iff_all isBlank cs).2 h
    simp [trimChars, h']

theorem trim_eq_empty_iff (s : String) : trim s = "" ↔ isBlankText s = true := by
  rw [isBlankText, ← trimChars_eq_nil_iff]
  constructor
  · intro h
    have := congrArg String.toList h
    simpa [trim] using this
  · intro h
    simp [trim, h]

end ActionFlow.Text
