import MixedStack.Proofs.Addresses
import MixedStack.Proofs.Words
import MixedStack.Shell.Parse

/-!
# Which lines are passed over

Blanks are more characters than separators, and a comment ends with its line for the words but goes
on to the end for `Shell.isIdle`. Still a text without words is blank or begins with a comment
(`Shell.Splits.idle`): what may stand around words is blank or stands behind a `#`. So a line that
is neither blank nor a comment has a first word or cannot be cut, and no command is passed over
(`Shell.parse_none_exact`).
-/

namespace MixedStack.Shell

/-- Blank, or a comment with nothing but blanks in front. -/
inductive Idle : List Char → Prop where
  | blank {cs : List Char} (h : ∀ c ∈ cs, Text.isBlank c) : Idle cs
  | comment (front text : List Char) (h : ∀ c ∈ front, Text.isBlank c) : Idle (front ++ '#' :: text)

section Idle

variable {c : Char} {front cs : List Char}

theorem isBlank_of_mem_separators (hc : c ∈ [' ', '\t', '\n']) : Text.isBlank c := by
  simp only [List.mem_cons, List.not_mem_nil, or_false] at hc
  rcases hc with rfl | rfl | rfl <;> decide

theorem isIdle_append (h : ∀ c ∈ front, Text.isBlank c) (cs : List Char) :
    isIdle (front ++ cs) = isIdle cs := by
  rw [isIdle, isIdle, Text.trim, Text.trim, List.dropWhile_append_of_pos h]

theorem exists_trim_cons (hc : ¬ Text.isBlank c) (cs : List Char) :
    ∃ rest, Text.trim (c :: cs) = c :: rest := by
  obtain ⟨⟨front, back, heq, hblank⟩, -, -⟩ := Text.trimmed_trim (c :: cs)
  rcases front with _ | ⟨d, front⟩
  · rcases hcore : Text.trim (c :: cs) with _ | ⟨d, core⟩
    · rw [hcore, List.nil_append, List.nil_append] at heq
      exact absurd (hblank c (heq ▸ List.mem_cons_self)) hc
    · rw [hcore] at heq
      exact ⟨core, by rw [(List.cons.inj heq).1]⟩
  · exact absurd (hblank c (by simp [(List.cons.inj heq).1])) hc

theorem isIdle_cons (hc : ¬ Text.isBlank c) (cs : List Char) :
    isIdle (c :: cs) = decide (c = '#') := by
  obtain ⟨rest, hrest⟩ := exists_trim_cons hc cs
  rw [isIdle, hrest]

theorem isIdle_iff : isIdle cs ↔ Idle cs := by
  constructor
  · intro h
    have hsplit : cs.takeWhile Text.isBlank ++ cs.dropWhile Text.isBlank = cs :=
      List.takeWhile_append_dropWhile
    have hfront : ∀ c ∈ cs.takeWhile Text.isBlank, Text.isBlank c :=
      fun _ => List.mem_takeWhile_imp
    rw [← hsplit, isIdle_append hfront] at h
    rw [← hsplit]
    rcases hrest : cs.dropWhile Text.isBlank with _ | ⟨c, text⟩
    · exact .blank (by simpa using hfront)
    · have hc : ¬ Text.isBlank c := by simp [Text.isBlank_head_dropWhile cs c (by simp [hrest])]
      rw [hrest, isIdle_cons hc] at h
      exact of_decide_eq_true h ▸ .comment _ text hfront
  · rintro (h | ⟨front, text, h⟩)
    · rw [← List.append_nil cs, isIdle_append h]
      rfl
    · rw [isIdle_append h, isIdle_cons (by decide)]
      rfl

theorem Idle.cons (h : Idle cs) (hc : Text.isBlank c) : Idle (c :: cs) := by
  cases h with
  | blank h => exact .blank (List.forall_mem_cons.2 ⟨hc, h⟩)
  | comment front text h => exact .comment (c :: front) text (List.forall_mem_cons.2 ⟨hc, h⟩)

/-- A text without words is blank up to its first comment. -/
theorem Splits.idle (h : Splits cs []) : Idle cs := by
  generalize hws : ([] : List (List Char)) = ws at h
  induction h with
  | nil => exact .blank (by simp)
  | separator hc _ ih => exact (ih hws).cons (isBlank_of_mem_separators hc)
  | comment => exact .comment [] _ (by simp)
  | word => cases hws

theorem words?_ne_nil (h : ¬ isIdle cs) : words? cs ≠ some [] := by
  intro hnone
  have hsplits : Splits cs [] := words?_eq_some_iff.1 hnone
  exact h (isIdle_iff.2 hsplits.idle)

end Idle

section Parsing

variable {line : String}

theorem parse_words {name : String} {arguments : List String} (h : ¬ isIdle line.toList)
    (hw : words? line.toList = some (name :: arguments)) :
    parse line = (command name arguments).map some := by
  simp only [parse, h, hw]
  cases command name arguments <;> rfl

/-- A line is passed over, refused, or has a first word. -/
theorem parse_cases (line : String) :
    (isIdle line.toList ∧ parse line = .ok none)
      ∨ (words? line.toList = none
        ∧ parse line = .error (.unbalanced (String.ofList (Text.trim line.toList))))
      ∨ ∃ name arguments, words? line.toList = some (name :: arguments)
        ∧ parse line = (command name arguments).map some := by
  by_cases h : isIdle line.toList
  · exact .inl ⟨h, if_pos h⟩
  rcases hw : words? line.toList with _ | _ | ⟨name, arguments⟩
  · exact .inr (.inl ⟨rfl, by simp [parse, h, hw]⟩)
  · exact absurd hw (words?_ne_nil h)
  · exact .inr (.inr ⟨name, arguments, rfl, parse_words h hw⟩)

theorem parse_eq_none_iff : parse line = .ok none ↔ isIdle line.toList := by
  constructor
  · intro h
    obtain ⟨hidle, -⟩ | ⟨-, hp⟩ | ⟨name, arguments, -, hp⟩ := parse_cases line
    · exact hidle
    · cases h.symm.trans hp
    · rcases hc : command name arguments with refusal | c <;> rw [hc] at hp <;>
        cases h.symm.trans hp
  · exact fun h => if_pos h

/-- A line is passed over only if it is blank or a comment. Any other line is cut into the words it
is made of, and there is a first one to name its command, or it cannot be cut and is refused. -/
theorem parse_none_exact (line : String) :
    (parse line = .ok none ↔ isIdle line.toList)
      ∧ (isIdle line.toList ↔ Idle line.toList)
      ∧ (∀ ws, words? line.toList = some ws ↔ Splits line.toList (ws.map String.toList))
      ∧ ((isIdle line.toList ∧ parse line = .ok none)
        ∨ (words? line.toList = none
          ∧ parse line = .error (.unbalanced (String.ofList (Text.trim line.toList))))
        ∨ ∃ name arguments, words? line.toList = some (name :: arguments)
          ∧ parse line = (command name arguments).map some) :=
  ⟨parse_eq_none_iff, isIdle_iff, fun _ => words?_eq_some_iff, parse_cases line⟩

-- A no-break space is blank and yet part of a word, a comment hides the words of its own line only,
-- and a line feed that is escaped begins a word.
example :
    ["\u00a0#", "# note\nbt", "\\\n"].map (fun line => (isIdle line.toList, words? line.toList))
      = [(true, some ["\u00a0#"]), (true, some ["bt"]), (false, some [""])] := by decide

end Parsing

end MixedStack.Shell
