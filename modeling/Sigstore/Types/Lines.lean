import Mathlib.Data.List.DropRight
import Sigstore.Types.Text

/-!
# Lines

The lines of a text and the part of it before its first blank line: no line has a line feed
(`mem_lines`), a text that is written line by line has these lines (`lines_unlines`,
`lines_joinLines`) and no blank line between them (`splitBlankLine_unlines`,
`splitBlankLine_joinLines`). A line that is its own trim is not changed by either reading of line
endings.
-/

namespace Sigstore

/-- Lines as a text, each with a carriage return and a line feed. -/
def unlines (ls : List String) : String :=
  String.ofList (ls.flatMap fun l => l.toList ++ ['\r', '\n'])

/-! ## The lines of a text -/

/-- Only the last character of an item of `splitInclusive` can be a line feed. An item is closed as
soon as it has a line feed, which is then its last character. -/
theorem mem_splitInclusive {cs l : List Char} (h : l ∈ splitInclusive cs) : '\n' ∉ l.dropLast := by
  induction cs generalizing l with
  | nil => cases h
  | cons c cs ih =>
    unfold splitInclusive at h
    split at h
    · rcases List.mem_cons.1 h with rfl | h
      · simp
      · exact ih h
    · next hc =>
      split at h
      · cases List.mem_singleton.1 h
        simp
      · next l' ls hsplit =>
        rw [hsplit] at ih
        rcases List.mem_cons.1 h with rfl | h
        · have hl' := ih List.mem_cons_self
          cases l' with
          | nil => simp
          | cons d l' => simpa [List.dropLast_cons_of_ne_nil] using ⟨Ne.symm hc, hl'⟩
        · exact ih (List.mem_cons_of_mem l' h)

/-- What is left without a suffix of one character lacks the last character. -/
theorem stripSuffix_eq_some {c : Char} {l l' : List Char} (h : stripSuffix c l = some l') :
    l' = l.dropLast := by
  unfold stripSuffix at h
  split at h
  · exact (Option.some.inj h).symm
  · cases h

/-- A line that has a line feed at most at its end has none without its ending. The ending is a line
feed, or a carriage return and a line feed; both go. -/
theorem not_mem_stripLineEnding {l : List Char} (h : '\n' ∉ l.dropLast) :
    '\n' ∉ stripLineEnding l := by
  unfold stripLineEnding
  split
  · next hstrip =>
    rcases List.eq_nil_or_concat' l with rfl | ⟨l', c, rfl⟩
    · simp
    · have hc : c ≠ '\n' := by
        rintro rfl
        simp [stripSuffix] at hstrip
      rw [List.dropLast_concat] at h
      simpa using ⟨h, Ne.symm hc⟩
  · next l' hstrip =>
    cases stripSuffix_eq_some hstrip
    cases hreturn : stripSuffix '\r' l.dropLast with
    | none => exact h
    | some l' =>
      cases stripSuffix_eq_some hreturn
      exact fun hmem => h (List.dropLast_subset _ hmem)

/-- A line has no line feed. -/
theorem mem_lines {s l : String} (h : l ∈ lines s) : '\n' ∉ l.toList := by
  obtain ⟨l', hl', rfl⟩ := List.mem_map.1 h
  rw [String.toList_ofList]
  exact not_mem_stripLineEnding (mem_splitInclusive hl')

/-- The first line of a text ends with the first line feed. -/
theorem splitInclusive_append {l : List Char} (h : '\n' ∉ l) (cs : List Char) :
    splitInclusive (l ++ '\n' :: cs) = (l ++ ['\n']) :: splitInclusive cs := by
  induction l with
  | nil => simp [splitInclusive]
  | cons c l ih =>
    have hc : c ≠ '\n' := fun heq => h (heq ▸ List.mem_cons_self)
    have hl : '\n' ∉ l := fun hmem => h (List.mem_cons_of_mem c hmem)
    rw [List.cons_append, splitInclusive, if_neg hc, ih hl]
    rfl

/-- A carriage return before the line feed belongs to the ending of the line. -/
theorem stripLineEnding_append (l : List Char) : stripLineEnding (l ++ ['\r', '\n']) = l := by
  have hfeed : stripSuffix '\n' (l ++ ['\r', '\n']) = some (l ++ ['\r']) := by
    simp [stripSuffix]
  have hreturn : stripSuffix '\r' (l ++ ['\r']) = some l := by
    simp [stripSuffix]
  simp [stripLineEnding, hfeed, hreturn]

/-- Lines are read from the text that they are written to. The lines are written with a carriage
return and a line feed, so that a return at the end of a line itself is kept. -/
theorem lines_unlines {ls : List String} (h : ∀ l ∈ ls, '\n' ∉ l.toList) :
    lines (unlines ls) = ls := by
  rw [lines, unlines, String.toList_ofList]
  induction ls with
  | nil => rfl
  | cons l ls ih =>
    have hl : '\n' ∉ l.toList ++ ['\r'] := by simpa using h l List.mem_cons_self
    have htext : (l.toList ++ ['\r', '\n']) ++ ls.flatMap (fun l => l.toList ++ ['\r', '\n']) =
        (l.toList ++ ['\r']) ++ '\n' :: ls.flatMap (fun l => l.toList ++ ['\r', '\n']) := by simp
    rw [List.flatMap_cons, htext, splitInclusive_append hl, List.map_cons,
      ih fun l hmem => h l (List.mem_cons_of_mem _ hmem)]
    have hline : l.toList ++ ['\r'] ++ ['\n'] = l.toList ++ ['\r', '\n'] := by simp
    rw [hline, stripLineEnding_append, String.ofList_toList]

/-! ## Blank lines -/

/-- A text that is split at blank lines has a part, if an empty one. -/
theorem splitBlankLine_ne_nil (cs : List Char) : splitBlankLine cs ≠ [] := by
  fun_cases splitBlankLine cs <;> simp

/-- A character that begins no blank line belongs to the part before the first one. -/
theorem splitBlankLine_cons {c : Char} {cs : List Char} (h : c = '\n' → cs.head? ≠ some '\n')
    {first : List Char} {rest : List (List Char)} (hsplit : splitBlankLine cs = first :: rest) :
    splitBlankLine (c :: cs) = (c :: first) :: rest := by
  rw [splitBlankLine, hsplit]
  rintro cs' rfl rfl
  exact h rfl rfl

/-- The part before the first blank line, followed by one, begins as the text does. -/
theorem head?_splitBlankLine {cs first next : List Char} {rest : List (List Char)}
    (h : splitBlankLine cs = first :: next :: rest) (after : List Char) :
    (first ++ '\n' :: '\n' :: after).head? = cs.head? := by
  unfold splitBlankLine at h
  split at h
  · cases h
  · cases first with
    | nil => rfl
    | cons c first => cases h
  · split at h <;> cases h
    rfl

/-- The part before the first blank line ends there whatever follows. The split is decided from the
left, so that the rest of the text has no part in it. -/
theorem splitBlankLine_first {cs first next : List Char} {rest : List (List Char)}
    (h : splitBlankLine cs = first :: next :: rest) (after : List Char) :
    splitBlankLine (first ++ '\n' :: '\n' :: after) = first :: splitBlankLine after := by
  induction cs using splitBlankLine.induct generalizing first with
  | case1 => cases h
  | case2 cs ih =>
    rw [splitBlankLine] at h
    obtain ⟨rfl, -⟩ := List.cons.inj h
    rfl
  | case3 c cs hc hnil ih => exact absurd hnil (splitBlankLine_ne_nil cs)
  | case4 c cs hc l ls hsplit ih =>
    have hstart : c = '\n' → cs.head? ≠ some '\n' := by
      rintro rfl hhead
      obtain ⟨cs', rfl⟩ := List.head?_eq_some_iff.1 hhead
      exact hc cs' rfl rfl
    rw [splitBlankLine_cons hstart hsplit] at h
    cases h
    refine splitBlankLine_cons (fun hline => ?_) (ih hsplit)
    exact (head?_splitBlankLine hsplit after).symm ▸ hstart hline

/-- A line and its ending begin no blank line, before text that does not begin with a line feed. The
ending has a carriage return before its line feed, so that a line feed can only meet another one
where the next line begins. -/
theorem splitBlankLine_line {l cs : List Char} (hl : '\n' ∉ l) (hcs : cs.head? ≠ some '\n')
    (h : splitBlankLine cs = [cs]) :
    splitBlankLine (l ++ '\r' :: '\n' :: cs) = [l ++ '\r' :: '\n' :: cs] := by
  induction l with
  | nil =>
    have hreturn : '\r' ≠ '\n' := by decide
    have hfeed : splitBlankLine ('\n' :: cs) = ['\n' :: cs] :=
      splitBlankLine_cons (fun _ => hcs) h
    exact splitBlankLine_cons (fun heq => absurd heq hreturn) hfeed
  | cons c l ih =>
    have hc : c ≠ '\n' := fun heq => hl (heq ▸ List.mem_cons_self)
    have hrest := ih fun hmem => hl (List.mem_cons_of_mem c hmem)
    exact splitBlankLine_cons (fun heq => absurd heq hc) hrest

/-- Text that is written line by line has no blank line. The induction needs to know besides that no
line begins with a line feed, hence the stronger statement. -/
theorem splitBlankLine_unlines {ls : List String} (h : ∀ l ∈ ls, '\n' ∉ l.toList) :
    splitBlankLine (unlines ls).toList = [(unlines ls).toList] := by
  rw [unlines, String.toList_ofList]
  -- the first character of each line, or its ending, is no line feed
  suffices hsuff : (ls.flatMap fun l => l.toList ++ ['\r', '\n']).head? ≠ some '\n' ∧
      splitBlankLine (ls.flatMap fun l => l.toList ++ ['\r', '\n']) =
        [ls.flatMap fun l => l.toList ++ ['\r', '\n']] from hsuff.2
  induction ls with
  | nil => exact ⟨by simp, rfl⟩
  | cons l ls ih =>
    obtain ⟨hhead, hsplit⟩ := ih fun l hmem => h l (List.mem_cons_of_mem _ hmem)
    have hl := h l List.mem_cons_self
    rw [List.flatMap_cons, List.append_assoc, List.cons_append, List.cons_append, List.nil_append]
    refine ⟨?_, splitBlankLine_line hl hhead hsplit⟩
    cases hchars : l.toList with
    | nil => simp
    | cons c cs =>
      rw [hchars] at hl
      have hc : c ≠ '\n' := fun heq => hl (heq ▸ List.mem_cons_self)
      simpa using hc

/-! ## Trimmed text -/

/-- A trimmed text begins with no white space and ends with none. The end is trimmed second, which
does not expose the beginning again. -/
theorem trimChars_ends {cs : List Char} {c : Char} :
    (c ∈ (trimChars cs).head? → isWhitespace c = false) ∧
      (c ∈ (trimChars cs).getLast? → isWhitespace c = false) := by
  constructor
  · intro hc
    have hbefore : trimChars cs <+: cs.dropWhile isWhitespace :=
      List.rdropWhile_prefix isWhitespace _
    obtain ⟨rest, hrest⟩ := List.head?_eq_some_iff.1 hc
    obtain ⟨after, hafter⟩ := hbefore
    have hhead := List.head?_dropWhile_not isWhitespace cs
    rw [← hafter, hrest] at hhead
    exact hhead
  · intro hc
    obtain ⟨start, hstart⟩ := List.getLast?_eq_some_iff.1 hc
    have hne : trimChars cs ≠ [] := by simp [hstart]
    have hlast := List.rdropWhile_last_not isWhitespace _ hne
    have hget : (trimChars cs).getLast hne = c := by simp [hstart]
    rw [← hget]
    exact Bool.not_eq_true _ ▸ hlast

/-- A text without white space at its ends is not trimmed. -/
theorem trimChars_eq_self {cs : List Char} (hhead : ∀ c ∈ cs.head?, isWhitespace c = false)
    (hlast : ∀ c ∈ cs.getLast?, isWhitespace c = false) : trimChars cs = cs := by
  have hdrop : cs.dropWhile isWhitespace = cs := by
    cases cs with
    | nil => rfl
    | cons c cs => simp [hhead c rfl]
  rw [trimChars, hdrop]
  show cs.rdropWhile isWhitespace = cs
  rw [List.rdropWhile_eq_self_iff]
  intro hne
  simp [hlast _ (List.getLast?_eq_some_getLast hne)]

theorem trim_trim (s : String) : trim (trim s) = trim s := by
  have hself : trimChars (trimChars s.toList) = trimChars s.toList :=
    trimChars_eq_self (fun _ => trimChars_ends.1) fun _ => trimChars_ends.2
  rw [trim, trim, String.toList_ofList, hself]

/-- Trimming adds no characters. -/
theorem mem_of_mem_trim {s : String} {c : Char} (h : c ∈ (trim s).toList) : c ∈ s.toList := by
  rw [trim, String.toList_ofList] at h
  have hbefore : trimChars s.toList <+: s.toList.dropWhile isWhitespace :=
    List.rdropWhile_prefix isWhitespace _
  exact (List.dropWhile_sublist _).subset (hbefore.subset h)

/-- A text without white space is its own trim, and one line. -/
theorem line_of_forall {s : String} (h : ∀ c ∈ s.toList, isWhitespace c = false) :
    trim s = s ∧ '\n' ∉ s.toList := by
  have hself : trimChars s.toList = s.toList := trimChars_eq_self
    (fun c hc => h c (List.mem_of_mem_head? hc)) fun c hc => h c (List.mem_of_getLast? hc)
  refine ⟨by rw [trim, hself, String.ofList_toList], fun hfeed => ?_⟩
  exact absurd (h '\n' hfeed) (by decide)

/-- No line that is its own trim ends with a carriage return. -/
theorem getLast?_ne_return {s : String} (h : trim s = s) : s.toList.getLast? ≠ some '\r' := by
  intro hlast
  rw [← h, trim, String.toList_ofList] at hlast
  exact absurd (trimChars_ends.2 hlast) (by decide)

/-! ## Lines that end with a line feed -/

/-- Lines as a text, each with a line feed. -/
def joinLines (ls : List String) : String :=
  String.ofList (ls.flatMap fun l => l.toList ++ ['\n'])

/-- Lines that are joined are split again, each with its line feed. -/
theorem splitInclusive_joinLines {ls : List String} (h : ∀ l ∈ ls, '\n' ∉ l.toList) :
    splitInclusive (joinLines ls).toList = ls.map fun l => l.toList ++ ['\n'] := by
  rw [joinLines, String.toList_ofList]
  induction ls with
  | nil => rfl
  | cons l ls ih =>
    have hrest := ih fun l hmem => h l (List.mem_cons_of_mem _ hmem)
    rw [List.flatMap_cons, List.append_assoc, List.singleton_append,
      splitInclusive_append (h l List.mem_cons_self), hrest, List.map_cons]

/-- The text of lines without line feeds tells the lines. -/
theorem joinLines_inj {ls ls' : List String} (h : ∀ l ∈ ls, '\n' ∉ l.toList)
    (h' : ∀ l ∈ ls', '\n' ∉ l.toList) (heq : joinLines ls = joinLines ls') : ls = ls' := by
  have hsplit := congrArg (fun s => splitInclusive s.toList) heq
  simp only [splitInclusive_joinLines h, splitInclusive_joinLines h'] at hsplit
  refine List.map_injective_iff.2 (fun l l' hline => ?_) hsplit
  exact String.toList_inj.1 (List.append_cancel_right hline)

/-- Without a carriage return before it the line feed alone is the ending of the line. -/
theorem stripLineEnding_feed {l : List Char} (h : l.getLast? ≠ some '\r') :
    stripLineEnding (l ++ ['\n']) = l := by
  simp [stripLineEnding, stripSuffix, h]

/-- Lines that are joined are read back, unless one of them ends in a carriage return. -/
theorem lines_joinLines {ls : List String} (h : ∀ l ∈ ls, '\n' ∉ l.toList)
    (hreturn : ∀ l ∈ ls, l.toList.getLast? ≠ some '\r') : lines (joinLines ls) = ls := by
  rw [lines, splitInclusive_joinLines h, List.map_map]
  have hline : ∀ l ∈ ls, String.ofList (stripLineEnding (l.toList ++ ['\n'])) = l := by
    intro l hl
    rw [stripLineEnding_feed (hreturn l hl), String.ofList_toList]
  exact (List.map_congr_left hline).trans (List.map_id _)

/-- A text without a line feed is one line. -/
theorem splitInclusive_of_not_mem {l : List Char} (h : '\n' ∉ l) (hne : l ≠ []) :
    splitInclusive l = [l] := by
  induction l with
  | nil => exact absurd rfl hne
  | cons c l ih =>
    have hc : c ≠ '\n' := fun heq => h (heq ▸ List.mem_cons_self)
    rw [splitInclusive, if_neg hc]
    cases l with
    | nil => rfl
    | cons d l =>
      rw [ih (fun hmem => h (List.mem_cons_of_mem c hmem)) (by simp)]

/-- Lines as a text, with line feeds between them. -/
def interLines (ls : List String) : List Char := ['\n'].intercalate (ls.map String.toList)

/-- The first of several lines is followed by a line feed and the others. -/
theorem interLines_cons {l : String} {ls : List String} (h : ls ≠ []) :
    interLines (l :: ls) = l.toList ++ '\n' :: interLines ls := by
  rw [interLines, List.map_cons, List.intercalate_cons_of_ne_nil (by simpa using h)]
  simp [interLines]

/-- Lines that each end in a line feed are lines with line feeds between them and one more at the
end. -/
theorem joinLines_eq {ls : List String} (h : ls ≠ []) :
    joinLines ls = String.ofList (interLines ls) ++ "\n" := by
  rw [← String.toList_inj, String.toList_append, joinLines, String.toList_ofList,
    String.toList_ofList]
  show _ = _ ++ ['\n']
  induction ls with
  | nil => exact absurd rfl h
  | cons l ls ih =>
    cases ls with
    | nil => simp [interLines]
    | cons l' ls =>
      rw [interLines_cons (by simp), List.flatMap_cons, ih (by simp)]
      simp

/-- The lines of a text are also read where the last one has no line feed. Here a carriage return at
the end of a line would be taken for a part of its ending, and is excluded. -/
theorem lines_interLines {ls : List String} (h : ∀ l ∈ ls, '\n' ∉ l.toList)
    (hreturn : ∀ l ∈ ls, l.toList.getLast? ≠ some '\r') (hne : ∀ l ∈ ls, l ≠ "") :
    lines (String.ofList (interLines ls)) = ls := by
  rw [lines, String.toList_ofList]
  induction ls with
  | nil => rfl
  | cons l ls ih =>
    have hl := h l List.mem_cons_self
    have hrest := ih (fun l hmem => h l (List.mem_cons_of_mem _ hmem))
      (fun l hmem => hreturn l (List.mem_cons_of_mem _ hmem))
      (fun l hmem => hne l (List.mem_cons_of_mem _ hmem))
    cases ls with
    | nil =>
      have hlast : stripSuffix '\n' l.toList = none := by
        rw [stripSuffix, if_neg fun heq => hl (List.mem_of_getLast? heq)]
      have hsingle : splitInclusive l.toList = [l.toList] :=
        splitInclusive_of_not_mem hl (by simpa using hne l List.mem_cons_self)
      simp [interLines, hsingle, stripLineEnding, hlast]
    | cons l' ls =>
      rw [interLines_cons (by simp), splitInclusive_append hl, List.map_cons, hrest,
        stripLineEnding_feed (hreturn l List.mem_cons_self), String.ofList_toList]

/-- Text without a line feed belongs to the part before the first blank line. -/
theorem splitBlankLine_append {l cs first : List Char} {rest : List (List Char)} (hl : '\n' ∉ l)
    (h : splitBlankLine cs = first :: rest) : splitBlankLine (l ++ cs) = (l ++ first) :: rest := by
  induction l with
  | nil => exact h
  | cons c l ih =>
    have hc : c ≠ '\n' := fun heq => hl (heq ▸ List.mem_cons_self)
    have hrest := ih fun hmem => hl (List.mem_cons_of_mem c hmem)
    exact splitBlankLine_cons (fun heq => absurd heq hc) hrest

/-- A text that begins with a line that is not empty does not begin with a line feed. -/
theorem head?_ne_feed {l : String} (h : '\n' ∉ l.toList) (hne : l ≠ "") (cs : List Char) :
    (l.toList ++ cs).head? ≠ some '\n' := by
  have hchars : l.toList ≠ [] := by simpa using hne
  rw [List.head?_append_of_ne_nil _ hchars]
  exact fun hhead => h (List.mem_of_mem_head? hhead)

/-- The lines before a blank line are the part before it, where none of them is blank. Two feeds in
a row need an empty line between them. -/
theorem splitBlankLine_interLines {ls : List String} (h : ∀ l ∈ ls, '\n' ∉ l.toList)
    (hne : ∀ l ∈ ls, l ≠ "") (after : List Char) :
    splitBlankLine (interLines ls ++ '\n' :: '\n' :: after) =
      interLines ls :: splitBlankLine after := by
  induction ls with
  | nil => rfl
  | cons l ls ih =>
    have hl := h l List.mem_cons_self
    cases ls with
    | nil =>
      have hblank : splitBlankLine ('\n' :: '\n' :: after) = [] :: splitBlankLine after := rfl
      simpa [interLines] using splitBlankLine_append hl hblank
    | cons l' ls =>
      have hrest := ih (fun l hmem => h l (List.mem_cons_of_mem _ hmem))
        (fun l hmem => hne l (List.mem_cons_of_mem _ hmem))
      have hhead : (interLines (l' :: ls) ++ '\n' :: '\n' :: after).head? ≠ some '\n' := by
        have hl' := head?_ne_feed (h l' (by simp)) (hne l' (by simp))
        cases ls with
        | nil => simpa [interLines] using hl' ('\n' :: '\n' :: after)
        | cons l'' ls =>
          rw [interLines_cons (by simp), List.append_assoc]
          exact hl' _
      rw [interLines_cons (by simp), List.append_assoc, List.cons_append]
      exact splitBlankLine_append hl (splitBlankLine_cons (fun _ => hhead) hrest)

/-- Lines that are not blank have no blank line between them. The whole text is then one part, with
the last line feed in it. -/
theorem splitBlankLine_joinLines {ls : List String} (h : ∀ l ∈ ls, '\n' ∉ l.toList)
    (hne : ∀ l ∈ ls, l ≠ "") :
    splitBlankLine (joinLines ls).toList = [(joinLines ls).toList] := by
  rw [joinLines, String.toList_ofList]
  induction ls with
  | nil => rfl
  | cons l ls ih =>
    have hrest := ih (fun l hmem => h l (List.mem_cons_of_mem _ hmem))
      (fun l hmem => hne l (List.mem_cons_of_mem _ hmem))
    have hhead : (ls.flatMap fun l => l.toList ++ ['\n']).head? ≠ some '\n' := by
      cases ls with
      | nil => simp
      | cons l' ls =>
        rw [List.flatMap_cons, List.append_assoc]
        exact head?_ne_feed (h l' (by simp)) (hne l' (by simp)) _
    rw [List.flatMap_cons, List.append_assoc, List.singleton_append]
    exact splitBlankLine_append (h l List.mem_cons_self)
      (splitBlankLine_cons (fun _ => hhead) hrest)

/-! ## Splitting at line feeds -/

/-- The parts of a text that is split at a character do not have the character. By induction on the
text, where a character goes to the first part or closes it. -/
theorem not_mem_of_mem_splitOn {x : Char} {cs l : List Char} (h : l ∈ cs.splitOn x) : x ∉ l := by
  induction cs generalizing l with
  | nil =>
    rw [List.splitOn_nil, List.mem_singleton] at h
    simp [h]
  | cons c cs ih =>
    rw [List.splitOn_cons_eq_if_modifyHead] at h
    split at h
    · rcases List.mem_cons.1 h with rfl | h
      · simp
      · exact ih h
    · next hc =>
      have hx : x ≠ c := fun heq => hc (by simp [heq])
      cases hsplit : cs.splitOn x with
      | nil => exact absurd hsplit (List.splitOn_ne_nil _ _)
      | cons first rest =>
        rw [hsplit, List.modifyHead_cons] at h
        rw [hsplit] at ih
        rcases List.mem_cons.1 h with rfl | h
        · simpa [hx] using ih List.mem_cons_self
        · exact ih (List.mem_cons_of_mem _ h)

/-- The pieces of a text between its line feeds. -/
def pieces (cs : List Char) : List String := (cs.splitOn '\n').map String.ofList

/-- A text is its pieces with line feeds between them. -/
theorem interLines_pieces (cs : List Char) : interLines (pieces cs) = cs := by
  have hchars : (pieces cs).map String.toList = cs.splitOn '\n' := by
    simp [pieces]
  rw [interLines, hchars, List.intercalate_splitOn]

/-- The pieces of lines with line feeds between them are the lines. -/
theorem pieces_interLines {ls : List String} (hne : ls ≠ []) (h : ∀ l ∈ ls, '\n' ∉ l.toList) :
    pieces (interLines ls) = ls := by
  have hsplit : (interLines ls).splitOn '\n' = ls.map String.toList :=
    List.splitOn_intercalate _ (List.forall_mem_map.2 h) (by simpa using hne)
  simp [pieces, hsplit]

/-- A piece of a text has no line feed. -/
theorem feed_not_mem_pieces {cs : List Char} {l : String} (h : l ∈ pieces cs) :
    '\n' ∉ l.toList := by
  obtain ⟨l', hl', rfl⟩ := List.mem_map.1 h
  rw [String.toList_ofList]
  exact not_mem_of_mem_splitOn hl'

end Sigstore
