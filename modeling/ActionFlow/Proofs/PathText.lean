import ActionFlow.Path

/-!
# Paths and their texts

The text of a path reads back as its segments.  Escapes keep the slash out of what stands between
two slashes, and undoing one kind of escape leaves the other kind as it was written.  Only empty
segments are lost, and no text has any.
-/
namespace ActionFlow.Path

variable {first second c d : Char} {cs text : List Char}

/-! ### Replacements -/

theorem replaceChar_cons_self (c : Char) (text cs : List Char) :
    replaceChar c text (c :: cs) = text ++ replaceChar c text cs := by
  simp [replaceChar]

theorem replaceChar_cons_of_ne (h : d ≠ c) (text cs : List Char) :
    replaceChar c text (d :: cs) = d :: replaceChar c text cs := by
  simp [replaceChar, h]

theorem not_mem_replaceChar (h : c ∉ text) (cs : List Char) : c ∉ replaceChar c text cs := by
  induction cs with
  | nil => simp [replaceChar]
  | cons d rest ih =>
    by_cases hd : d = c
    · subst hd
      rw [replaceChar_cons_self, List.mem_append, not_or]
      exact ⟨h, ih⟩
    · rw [replaceChar_cons_of_ne hd, List.mem_cons, not_or]
      exact ⟨fun he => hd he.symm, ih⟩

theorem replaceChar_ne_nil (h : text ≠ []) (hcs : cs ≠ []) : replaceChar c text cs ≠ [] := by
  cases cs with
  | nil => exact absurd rfl hcs
  | cons d rest =>
    by_cases hd : d = c
    · subst hd
      rw [replaceChar_cons_self]
      simp [h]
    · rw [replaceChar_cons_of_ne hd]
      simp

theorem replacePair_pair (first second c : Char) (cs : List Char) :
    replacePair first second c (first :: second :: cs) = c :: replacePair first second c cs := by
  simp [replacePair]

theorem replacePair_cons_of_ne (h : d ≠ first) (cs : List Char) :
    replacePair first second c (d :: cs) = d :: replacePair first second c cs := by
  cases cs with
  | nil => rfl
  | cons e rest => simp [replacePair, h]

theorem replacePair_ne_nil (h : cs ≠ []) : replacePair first second c cs ≠ [] := by
  match cs with
  | [] => exact absurd rfl h
  | [d] => simp [replacePair]
  | d :: e :: rest =>
    rw [replacePair]
    split <;> simp

/-! ### Escapes -/

theorem escape_tilde (cs : List Char) : escape ('~' :: cs) = '~' :: '0' :: escape cs := by
  have htilde : '~' ≠ '/' := by decide
  have hzero : '0' ≠ '/' := by decide
  rw [escape, replaceChar_cons_self, List.cons_append, List.cons_append, List.nil_append,
    replaceChar_cons_of_ne htilde, replaceChar_cons_of_ne hzero, escape]

theorem escape_slash (cs : List Char) : escape ('/' :: cs) = '~' :: '1' :: escape cs := by
  have hslash : '/' ≠ '~' := by decide
  rw [escape, replaceChar_cons_of_ne hslash, replaceChar_cons_self, List.cons_append,
    List.cons_append, List.nil_append, escape]

theorem escape_cons_of_ne (htilde : c ≠ '~') (hslash : c ≠ '/') (cs : List Char) :
    escape (c :: cs) = c :: escape cs := by
  rw [escape, replaceChar_cons_of_ne htilde, replaceChar_cons_of_ne hslash, escape]

/-- Undoing the escapes of slashes meets none of the zeros that stand after a tilde. -/
theorem replacePair_escape (cs : List Char) :
    replacePair '~' '1' '/' (escape cs) = replaceChar '~' ['~', '0'] cs := by
  induction cs with
  | nil => rfl
  | cons c rest ih =>
    by_cases htilde : c = '~'
    · subst htilde
      have hzero : '0' ≠ '~' := by decide
      have hstep : replacePair '~' '1' '/' ('~' :: '0' :: escape rest) =
          '~' :: replacePair '~' '1' '/' ('0' :: escape rest) := by
        simp [replacePair]
      rw [escape_tilde, hstep, replacePair_cons_of_ne hzero, ih, replaceChar_cons_self]
      rfl
    · by_cases hslash : c = '/'
      · subst hslash
        rw [escape_slash, replacePair_pair, ih, replaceChar_cons_of_ne htilde]
      · rw [escape_cons_of_ne htilde hslash, replacePair_cons_of_ne htilde, ih,
          replaceChar_cons_of_ne htilde]

theorem replacePair_tildes (cs : List Char) :
    replacePair '~' '0' '~' (replaceChar '~' ['~', '0'] cs) = cs := by
  induction cs with
  | nil => rfl
  | cons c rest ih =>
    by_cases htilde : c = '~'
    · subst htilde
      rw [replaceChar_cons_self, List.cons_append, List.cons_append, List.nil_append,
        replacePair_pair, ih]
    · rw [replaceChar_cons_of_ne htilde, replacePair_cons_of_ne htilde, ih]

theorem unescape_escape (cs : List Char) : unescape (escape cs) = cs := by
  rw [unescape, replacePair_escape, replacePair_tildes]

theorem slash_not_mem_escape (cs : List Char) : '/' ∉ escape cs :=
  not_mem_replaceChar (by decide) _

theorem escape_eq_nil_iff : escape cs = [] ↔ cs = [] := by
  constructor
  · intro h
    refine Decidable.byContradiction fun hcs => ?_
    exact replaceChar_ne_nil (by decide) (replaceChar_ne_nil (by decide) hcs) h
  · rintro rfl
    rfl

theorem unescape_ne_nil (h : cs ≠ []) : unescape cs ≠ [] :=
  replacePair_ne_nil (replacePair_ne_nil h)

/-! ### Pieces -/

theorem exists_pieces (cs : List Char) : ∃ piece others, pieces cs = piece :: others := by
  induction cs with
  | nil => exact ⟨[], [], rfl⟩
  | cons c rest ih =>
    obtain ⟨piece, others, h⟩ := ih
    by_cases hc : c = '/'
    · exact ⟨[], piece :: others, by simp [pieces, h, hc]⟩
    · exact ⟨c :: piece, others, by simp [pieces, h, hc]⟩

theorem pieces_slash (cs : List Char) : pieces ('/' :: cs) = [] :: pieces cs := by
  obtain ⟨piece, others, h⟩ := exists_pieces cs
  simp [pieces, h]

theorem pieces_append {rest piece : List Char} {others : List (List Char)} (hcs : '/' ∉ cs)
    (h : pieces rest = piece :: others) : pieces (cs ++ rest) = (cs ++ piece) :: others := by
  induction cs with
  | nil => exact h
  | cons c front ih =>
    rw [List.mem_cons, not_or] at hcs
    have hc : c ≠ '/' := fun he => hcs.1 he.symm
    simp [pieces, ih hcs.2, hc]

/-- Between the slashes of a text stand the segments as they are written, after an empty piece in
front of the first slash. -/
theorem pieces_segmentChars (segments : List String) :
    pieces (segmentChars segments) = [] :: segments.map fun s => escape s.toList := by
  induction segments with
  | nil => rfl
  | cons s rest ih =>
    have hchars : segmentChars (s :: rest) = '/' :: (escape s.toList ++ segmentChars rest) := by
      simp [segmentChars]
    rw [hchars, pieces_slash, pieces_append (slash_not_mem_escape _) ih, List.append_nil,
      List.map_cons]

theorem pieces_text (segments : List String) :
    (pieces (Path.text ⟨segments⟩).toList).filter (· ≠ []) =
      (segments.filter (· ≠ "")).map fun s => escape s.toList := by
  have hempty (s : String) : escape s.toList = [] ↔ s = "" := by
    rw [escape_eq_nil_iff, String.toList_eq_nil_iff]
  cases segments with
  | nil => decide
  | cons s rest =>
    have htext : (Path.text ⟨s :: rest⟩).toList = segmentChars (s :: rest) := by
      simp [Path.text]
    rw [htext, pieces_segmentChars, List.filter_cons_of_neg (by simp), List.filter_map]
    simp only [Function.comp_def, ne_eq, hempty]

/-- The text of a path reads back as its segments without the empty ones.  What is read has no empty
segment, so its own text reads back as it is. -/
theorem parse_text_inverse :
    (∀ segments, parse (Path.text ⟨segments⟩) = ⟨segments.filter (· ≠ "")⟩) ∧
      ∀ s, "" ∉ (parse s).segments ∧ parse (parse s).text = parse s := by
  have hread (segments : List String) :
      parse (Path.text ⟨segments⟩) = ⟨segments.filter (· ≠ "")⟩ := by
    rw [parse, pieces_text, List.map_map]
    simp [Function.comp_def, unescape_escape]
  have hfree (s : String) : "" ∉ (parse s).segments := by
    intro hmem
    simp only [parse, List.mem_map, List.mem_filter, decide_eq_true_eq] at hmem
    obtain ⟨piece, ⟨-, hpiece⟩, he⟩ := hmem
    have hne := unescape_ne_nil hpiece
    rw [String.ofList_eq_empty_iff] at he
    exact hne he
  refine ⟨hread, fun s => ⟨hfree s, ?_⟩⟩
  have hall : (parse s).segments.filter (· ≠ "") = (parse s).segments := by
    rw [List.filter_eq_self]
    intro segment hsegment
    have hne : segment ≠ "" := fun he => hfree s (he ▸ hsegment)
    simpa using hne
  have h := hread (parse s).segments
  rw [hall] at h
  exact h

/-- A slash and a tilde next to each other, in either order, and an empty segment. -/
example : (Path.text ⟨["~1", "/~", "", "~/01"]⟩) = "/~01/~1~0//~0~101" ∧
    (parse "/~01/~1~0//~0~101").segments = ["~1", "/~", "~/01"] := by
  decide

end ActionFlow.Path
