import Mathlib.Data.List.Basic
import MixedStack.Shell.Words

/-!
# The words of a line

What the words of a line are is said here without reading it: the pieces that a word is made of
(`Shell.Piece`), and what may stand around words (`Shell.Splits`). A line is cut into just the words
that it is made of (`Shell.words?_eq_some_iff`). The way back from the reading goes over all places
in a line at once, each with what has to follow there (`Shell.Follows`).
-/

namespace MixedStack.Shell

/-- Text in double quotes, as it is spelled there and as it is meant. -/
inductive Quoted : List Char → List Char → Prop where
  | nil : Quoted [] []
  | plain {c : Char} {body text : List Char} (hc : c ∉ ['\x22', '\\']) (h : Quoted body text) :
    Quoted (c :: body) (c :: text)
  | escaped {c : Char} {body text : List Char} (hc : c ∈ ['$', '\x60', '\x22', '\\'])
    (h : Quoted body text) : Quoted ('\\' :: c :: body) (c :: text)
  | joined {body text : List Char} (h : Quoted body text) : Quoted ('\\' :: '\n' :: body) text
  /-- A backslash that escapes nothing. -/
  | kept {c : Char} {body text : List Char} (hc : c ∉ ['$', '\x60', '\x22', '\\', '\n'])
    (h : Quoted body text) : Quoted ('\\' :: c :: body) ('\\' :: c :: text)

/-- A piece of a word, as it is spelled and as it is meant. -/
inductive Piece : List Char → List Char → Prop where
  | plain {c : Char} (hc : c ∉ [' ', '\t', '\n', '\x22', '\x27', '\\']) : Piece [c] [c]
  | escaped {c : Char} (hc : c ≠ '\n') : Piece ['\\', c] [c]
  | joined : Piece ['\\', '\n'] []
  | single {body : List Char} (hbody : '\x27' ∉ body) : Piece ('\x27' :: (body ++ ['\x27'])) body
  | double {body text : List Char} (h : Quoted body text) :
    Piece ('\x22' :: (body ++ ['\x22'])) text

/-- Pieces in a row. -/
inductive Spells : List Char → List Char → Prop where
  | nil : Spells [] []
  | cons {piece text spelling word : List Char} (hp : Piece piece text) (h : Spells spelling word) :
    Spells (piece ++ spelling) (text ++ word)

/-- A text and the words in it. A word ends at a separator and a comment at a line feed, if not with
the text. -/
inductive Splits : List Char → List (List Char) → Prop where
  | nil : Splits [] []
  | separator {c : Char} {cs : List Char} {ws : List (List Char)} (hc : c ∈ [' ', '\t', '\n'])
    (h : Splits cs ws) : Splits (c :: cs) ws
  | comment {text rest : List Char} {ws : List (List Char)} (htext : '\n' ∉ text)
    (hend : ∀ c ∈ rest.head?, c = '\n') (h : Splits rest ws) : Splits ('#' :: (text ++ rest)) ws
  | word {spelling word rest : List Char} {ws : List (List Char)} (hs : Spells spelling word)
    (hne : spelling ≠ []) (hfirst : spelling.head? ≠ some '#')
    (hend : ∀ c ∈ rest.head?, c ∈ [' ', '\t', '\n']) (h : Splits rest ws) :
    Splits (spelling ++ rest) (word :: ws)

section Characters

variable {c : Char}

theorem isSeparator_iff : isSeparator c ↔ c ∈ [' ', '\t', '\n'] := by
  simp [isSeparator, or_assoc]

theorem doubleEscape_of_mem (hc : c ∈ ['$', '\x60', '\x22', '\\']) : doubleEscape c = [c] := by
  simp only [List.mem_cons, List.not_mem_nil, or_false] at hc
  exact if_pos hc

theorem doubleEscape_of_not_mem (hc : c ∉ ['$', '\x60', '\x22', '\\', '\n']) :
    doubleEscape c = ['\\', c] := by
  simp only [List.mem_cons, List.not_mem_nil, or_false, not_or] at hc
  simp [doubleEscape, hc]

end Characters

section Reading

variable {c : Char} {piece body text spelling word cs rest : List Char} {ws : List (List Char)}

theorem wordsFrom_single (hbody : '\x27' ∉ body) (held cs : List Char) :
    wordsFrom .single held (body ++ '\x27' :: cs) = wordsFrom .bare (held ++ body) cs := by
  induction body generalizing held with
  | nil => simp [wordsFrom]
  | cons c body ih =>
    rw [List.mem_cons, not_or] at hbody
    rw [List.cons_append, wordsFrom, if_neg (Ne.symm hbody.1), ih hbody.2, List.append_assoc,
      List.singleton_append]

theorem wordsFrom_double_escape (held : List Char) (c : Char) (cs : List Char) :
    wordsFrom .double held ('\\' :: c :: cs) = wordsFrom .double (held ++ doubleEscape c) cs := by
  simp [wordsFrom]

theorem wordsFrom_double (h : Quoted body text) (held cs : List Char) :
    wordsFrom .double held (body ++ '\x22' :: cs) = wordsFrom .bare (held ++ text) cs := by
  induction h generalizing held with
  | nil => simp [wordsFrom]
  | plain hc _ ih =>
    simp only [List.mem_cons, List.not_mem_nil, or_false, not_or] at hc
    simp [wordsFrom, hc, ih]
  | escaped hc _ ih => simp [wordsFrom_double_escape, doubleEscape_of_mem hc, ih]
  | joined _ ih => simp [wordsFrom_double_escape, doubleEscape, ih]
  | kept hc _ ih => simp [wordsFrom_double_escape, doubleEscape_of_not_mem hc, ih]

theorem wordsFrom_piece (h : Piece piece text) (held cs : List Char) :
    wordsFrom .bare held (piece ++ cs) = wordsFrom .bare (held ++ text) cs := by
  cases h with
  | plain hc =>
    simp only [List.mem_cons, List.not_mem_nil, or_false, not_or] at hc
    simp [wordsFrom, isSeparator, bareStep, hc]
  | escaped hc => simp [wordsFrom, isSeparator, bareStep, hc]
  | joined => simp [wordsFrom, isSeparator, bareStep]
  | single hbody => simp [wordsFrom, isSeparator, bareStep, wordsFrom_single hbody]
  | double h => simp [wordsFrom, isSeparator, bareStep, wordsFrom_double h]

theorem wordsFrom_spells (h : Spells spelling word) (held cs : List Char) :
    wordsFrom .bare held (spelling ++ cs) = wordsFrom .bare (held ++ word) cs := by
  induction h generalizing held with
  | nil => simp
  | cons hp _ ih => rw [List.append_assoc, wordsFrom_piece hp, ih, List.append_assoc]

theorem wordsFrom_bare_of_end (hend : ∀ c ∈ rest.head?, c ∈ [' ', '\t', '\n'])
    (held : List Char) :
    wordsFrom .bare held rest = (wordsFrom .between [] rest).map (held :: ·) := by
  rcases rest with _ | ⟨c, rest⟩
  · rfl
  · have hc : isSeparator c := isSeparator_iff.2 (hend c rfl)
    simp [wordsFrom, hc]

theorem wordsFrom_comment (htext : '\n' ∉ text) (hend : ∀ c ∈ rest.head?, c = '\n') :
    wordsFrom .comment [] (text ++ rest) = wordsFrom .between [] rest := by
  induction text with
  | nil =>
    rcases rest with _ | ⟨c, rest⟩
    · rfl
    · obtain rfl : c = '\n' := hend c rfl
      simp [wordsFrom, isSeparator]
  | cons c text ih =>
    rw [List.mem_cons, not_or] at htext
    rw [List.cons_append, wordsFrom, if_neg (Ne.symm htext.1), ih htext.2]

theorem wordsFrom_between (hc : c ∉ [' ', '\t', '\n']) (hhash : c ≠ '#') (cs : List Char) :
    wordsFrom .between [] (c :: cs) = wordsFrom .bare [] (c :: cs) := by
  simp [wordsFrom, mt isSeparator_iff.1 hc, hhash]

/-- No word is spelled with a separator in front. -/
theorem Spells.exists_cons (h : Spells spelling word) (hne : spelling ≠ []) :
    ∃ c cs, spelling = c :: cs ∧ c ∉ [' ', '\t', '\n'] := by
  cases h with
  | nil => exact absurd rfl hne
  | cons hp hs =>
    cases hp with
    | plain hc => exact ⟨_, _, rfl, fun h => hc (List.mem_append_left ['\x22', '\x27', '\\'] h)⟩
    | escaped | joined | single | double => exact ⟨_, _, rfl, by decide⟩

theorem wordsFrom_of_splits (h : Splits cs ws) : wordsFrom .between [] cs = some ws := by
  induction h with
  | nil => rfl
  | separator hc _ ih => rw [wordsFrom, if_pos (isSeparator_iff.2 hc), ih]
  | comment htext hend _ ih =>
    rw [wordsFrom, if_neg (by decide), if_pos rfl, wordsFrom_comment htext hend, ih]
  | word hs hne hfirst hend _ ih =>
    obtain ⟨c, cs, rfl, hc⟩ := hs.exists_cons hne
    have hhash : c ≠ '#' := by simpa using hfirst
    rw [List.cons_append, wordsFrom_between hc hhash, ← List.cons_append, wordsFrom_spells hs,
      wordsFrom_bare_of_end hend, ih]
    rfl

end Reading

section Spelling

variable {c : Char} {held piece text cs : List Char} {ws : List (List Char)}

/-- In a word that means `held` so far: the rest of it, and the other words. -/
def Resumes (held cs : List Char) (ws : List (List Char)) : Prop :=
  ∃ spelling word rest others, cs = spelling ++ rest ∧ Spells spelling word
    ∧ (∀ c ∈ rest.head?, c ∈ [' ', '\t', '\n']) ∧ Splits rest others
    ∧ ws = (held ++ word) :: others

/-- The same where single quotes are open. -/
def ClosesSingle (held cs : List Char) (ws : List (List Char)) : Prop :=
  ∃ body rest, cs = body ++ '\x27' :: rest ∧ '\x27' ∉ body ∧ Resumes (held ++ body) rest ws

/-- The same where double quotes are open. -/
def ClosesDouble (held cs : List Char) (ws : List (List Char)) : Prop :=
  ∃ body text rest, cs = body ++ '\x22' :: rest ∧ Quoted body text
    ∧ Resumes (held ++ text) rest ws

/-- The rest of a comment, and the words behind it. -/
def Hides (cs : List Char) (ws : List (List Char)) : Prop :=
  ∃ text rest, cs = text ++ rest ∧ '\n' ∉ text ∧ (∀ c ∈ rest.head?, c = '\n') ∧ Splits rest ws

/-- What the text from some place on is made of. A backslash belongs to what it escapes. -/
def Follows : Place → (held : List Char) → List Char → List (List Char) → Prop
  | .between, _, cs, ws => Splits cs ws
  | .comment, _, cs, ws => Hides cs ws
  | .bare, held, cs, ws => Resumes held cs ws
  | .escaped, held, cs, ws => Resumes held ('\\' :: cs) ws
  | .single, held, cs, ws => ClosesSingle held cs ws
  | .double, held, cs, ws => ClosesDouble held cs ws
  | .doubleEscaped, held, cs, ws => ClosesDouble held ('\\' :: cs) ws

namespace Resumes

theorem nil (held : List Char) : Resumes held [] [held] :=
  ⟨[], [], [], [], rfl, .nil, by simp, .nil, by simp⟩

theorem separator (hc : c ∈ [' ', '\t', '\n']) (held : List Char) (h : Splits cs ws) :
    Resumes held (c :: cs) (held :: ws) :=
  ⟨[], [], c :: cs, ws, rfl, .nil, by simpa using hc, h.separator hc, by simp⟩

theorem behind (h : Resumes (held ++ text) cs ws) (hp : Piece piece text) :
    Resumes held (piece ++ cs) ws := by
  obtain ⟨spelling, word, rest, others, rfl, hs, hend, hrest, rfl⟩ := h
  exact ⟨piece ++ spelling, text ++ word, rest, others, (List.append_assoc ..).symm, hs.cons hp,
    hend, hrest, by rw [List.append_assoc]⟩

theorem splits (h : Resumes [] (c :: cs) ws) (hc : c ∉ [' ', '\t', '\n']) (hhash : c ≠ '#') :
    Splits (c :: cs) ws := by
  obtain ⟨spelling, word, rest, others, heq, hs, hend, hrest, rfl⟩ := h
  rcases spelling with _ | ⟨d, spelling⟩
  · -- the word would end before it begins
    rw [List.nil_append] at heq
    exact absurd (hend c (heq ▸ rfl)) hc
  · obtain ⟨rfl, rfl⟩ := List.cons.inj heq
    exact .word hs (List.cons_ne_nil _ _) (by simpa using hhash) hend hrest

end Resumes

theorem ClosesSingle.cons (h : ClosesSingle (held ++ [c]) cs ws) (hc : c ≠ '\x27') :
    ClosesSingle held (c :: cs) ws := by
  obtain ⟨body, rest, rfl, hbody, hr⟩ := h
  exact ⟨c :: body, rest, rfl, by simp [hbody, hc.symm], by simpa using hr⟩

theorem ClosesDouble.cons (h : ClosesDouble (held ++ [c]) cs ws) (hc : c ∉ ['\x22', '\\']) :
    ClosesDouble held (c :: cs) ws := by
  obtain ⟨body, text, rest, rfl, hbody, hr⟩ := h
  exact ⟨c :: body, c :: text, rest, rfl, hbody.plain hc, by simpa using hr⟩

theorem ClosesDouble.escape (h : ClosesDouble (held ++ doubleEscape c) cs ws) :
    ClosesDouble held ('\\' :: c :: cs) ws := by
  obtain ⟨body, text, rest, rfl, hbody, hr⟩ := h
  rw [List.append_assoc] at hr
  refine ⟨'\\' :: c :: body, doubleEscape c ++ text, rest, rfl, ?_, hr⟩
  by_cases hc : c ∈ ['$', '\x60', '\x22', '\\']
  · rw [doubleEscape_of_mem hc]
    exact hbody.escaped hc
  by_cases hn : c = '\n'
  · subst hn
    exact hbody.joined
  · have hnone : c ∉ ['$', '\x60', '\x22', '\\', '\n'] := by simp_all
    rw [doubleEscape_of_not_mem hnone]
    exact hbody.kept hnone

theorem Hides.cons (h : Hides cs ws) (hc : c ≠ '\n') : Hides (c :: cs) ws := by
  obtain ⟨text, rest, rfl, htext, hend, hrest⟩ := h
  exact ⟨c :: text, rest, rfl, by simp [htext, hc.symm], hend, hrest⟩

theorem resumes_of_bareStep (hc : c ∉ [' ', '\t', '\n'])
    (h : Follows (bareStep held c).1 (bareStep held c).2 cs ws) : Resumes held (c :: cs) ws := by
  unfold bareStep at h
  split_ifs at h with hdouble hsingle hescape
  · obtain ⟨body, text, rest, rfl, hbody, hr⟩ := h
    subst hdouble
    simpa using hr.behind (.double hbody)
  · obtain ⟨body, rest, rfl, hbody, hr⟩ := h
    subst hsingle
    simpa using hr.behind (.single hbody)
  · subst hescape
    exact h
  · exact Resumes.behind h (.plain (by simp_all))

/-- The induction is on the text, for all places at once: a character leads from one to another. -/
theorem follows_of_wordsFrom : ∀ (cs : List Char) {place : Place} {held : List Char}
    {ws : List (List Char)}, wordsFrom place held cs = some ws → Follows place held cs ws
  | [], place, held, ws, h => by
    cases place <;> simp only [wordsFrom, Option.some.injEq, reduceCtorEq] at h
    case between => exact h ▸ .nil
    case comment => exact ⟨[], [], rfl, List.not_mem_nil, by simp, h ▸ .nil⟩
    case bare => exact h ▸ .nil held
  | c :: cs, place, held, ws, h => by
    cases place with
    | between =>
      rw [wordsFrom] at h
      split_ifs at h with hc hhash
      · exact .separator (isSeparator_iff.1 hc) (follows_of_wordsFrom cs h)
      · obtain ⟨text, rest, rfl, htext, hend, hrest⟩ := follows_of_wordsFrom cs h
        exact hhash ▸ .comment htext hend hrest
      · have hmem := mt isSeparator_iff.2 hc
        exact (resumes_of_bareStep hmem (follows_of_wordsFrom cs h)).splits hmem hhash
    | comment =>
      rw [wordsFrom] at h
      split_ifs at h with hc
      · have hrest : Splits cs ws := follows_of_wordsFrom cs h
        exact ⟨[], c :: cs, rfl, List.not_mem_nil, by simpa using hc,
          hrest.separator (by simp [hc])⟩
      · exact Hides.cons (follows_of_wordsFrom cs h) hc
    | bare =>
      rw [wordsFrom] at h
      split_ifs at h with hc
      · obtain ⟨others, hothers, rfl⟩ := Option.map_eq_some_iff.1 h
        exact .separator (isSeparator_iff.1 hc) held (follows_of_wordsFrom cs hothers)
      · exact resumes_of_bareStep (mt isSeparator_iff.2 hc) (follows_of_wordsFrom cs h)
    | escaped =>
      rw [wordsFrom] at h
      have hr : Resumes (if c = '\n' then held else held ++ [c]) cs ws := follows_of_wordsFrom cs h
      split_ifs at hr with hc
      · exact hc ▸ Resumes.behind (by rwa [List.append_nil]) .joined
      · exact hr.behind (.escaped hc)
    | single =>
      rw [wordsFrom] at h
      split_ifs at h with hc
      · have hr : Resumes held cs ws := follows_of_wordsFrom cs h
        exact ⟨[], cs, by rw [hc, List.nil_append], List.not_mem_nil, by rwa [List.append_nil]⟩
      · exact ClosesSingle.cons (follows_of_wordsFrom cs h) hc
    | double =>
      rw [wordsFrom] at h
      split_ifs at h with hc hb
      · have hr : Resumes held cs ws := follows_of_wordsFrom cs h
        exact ⟨[], [], cs, by rw [hc, List.nil_append], .nil, by rwa [List.append_nil]⟩
      · exact hb ▸ follows_of_wordsFrom cs h
      · exact ClosesDouble.cons (follows_of_wordsFrom cs h) (by simp [hc, hb])
    | doubleEscaped => exact ClosesDouble.escape (follows_of_wordsFrom cs h)

theorem wordsFrom_eq_some_iff : wordsFrom .between [] cs = some ws ↔ Splits cs ws :=
  ⟨follows_of_wordsFrom cs, wordsFrom_of_splits⟩

theorem words?_eq_some_iff {ws : List String} :
    words? cs = some ws ↔ Splits cs (ws.map String.toList) := by
  rw [words?, Option.map_eq_some_iff, ← wordsFrom_eq_some_iff]
  constructor
  · rintro ⟨words, h, rfl⟩
    simpa using h
  · intro h
    exact ⟨ws.map String.toList, h, by simp⟩

end Spelling

end MixedStack.Shell
