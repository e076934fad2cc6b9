import MixedStack.Proofs.Lines
import MixedStack.Shell.Run

/-!
# Scripts as folds over their lines

A transcript holds what answering lines one by one has come to: the debugger, what was printed for
each line, and how the script ended, if it has. Running a script is the fold of `Transcript.take`
over its lines (`Shell.run_eq`), and a prompt is only printed, before each line. So a script that came
to its last line can be gone on with, and one that ended before does not see what follows
(`Shell.run_folds`).
-/

namespace MixedStack

theorem Traced.bind_congr_value {α β : Type} {x : Traced α} {f g : α → Traced β}
    (h : f x.value = g x.value) : x >>= f = x >>= g := by
  show (⟨(f x.value).value, x.trail ++ (f x.value).trail⟩ : Traced β) = _
  rw [h]
  rfl

namespace Shell

/-- What answering lines has come to, and what was printed for each that did not end the script. -/
structure Transcript where
  debugger : Debugger
  printed : List String
  ending : Ending

namespace Transcript

/-- The transcript of no lines. -/
def start (d : Debugger) : Transcript := ⟨d, [], .exhausted⟩

/-- Answers one more line, unless the script has ended. -/
def take (x : Transcript) (bytes : List UInt8) : Traced Transcript :=
  if x.ending ≠ .exhausted then return x
  else
    match Text.ofUtf8? bytes with
    | none => return { x with ending := .notText }
    | some line =>
      match parse line with
      | .error refusal => return { x with printed := x.printed ++ [refusal.message ++ "\n"] }
      | .ok none => return { x with printed := x.printed ++ [""] }
      | .ok (some command) => do
        let (debugger, reply) ← x.debugger.execute command
        if command = .quit then return { x with debugger, ending := .quit }
        else return { x with debugger, printed := x.printed ++ [reply.text] }

/-- What a transcript comes to, with a prompt behind each line that did not end the script. -/
def outcome (prompted : Bool) (x : Transcript) : Outcome :=
  ⟨x.debugger, String.join (x.printed.map (· ++ prompt prompted)), x.ending⟩

theorem foldlM_take_of_ended {x : Transcript} (hx : x.ending ≠ .exhausted)
    (lines : List (List UInt8)) : lines.foldlM take x = pure x := by
  induction lines with
  | nil => rfl
  | cons bytes lines ih =>
    have htake : x.take bytes = pure x := if_pos hx
    rw [List.foldlM_cons, htake, pure_bind, ih]

end Transcript

theorem Outcome.behind_behind (a b : String) (o : Outcome) :
    (o.behind a).behind b = o.behind (b ++ a) := by
  simp only [Outcome.behind, String.append_assoc]

/-- Only quitting ends a script. -/
theorem reply_execute (d : Debugger) {c : Command} (hc : c ≠ .quit) :
    ∃ lines, (d.execute c).value.2 = .say lines := by
  cases c with
  | backtrace asked =>
    simp only [Debugger.execute, Debugger.perform, Traced.value_bind]
    split
    · simp only [Debugger.showFrames, Traced.value_bind]
      split <;> exact ⟨_, rfl⟩
    · exact ⟨_, rfl⟩
  | resume =>
    simp only [Debugger.execute, Debugger.perform, Debugger.goOn, Traced.value_bind]
    split
    · exact ⟨_, rfl⟩
    · simp only [Traced.value_bind]
      split <;> exact ⟨_, rfl⟩
  | select t =>
    simp only [Debugger.execute, Debugger.perform, Debugger.select, Traced.value_bind]
    split <;> exact ⟨_, rfl⟩
  | threads => exact ⟨_, rfl⟩
  | reload => exact ⟨_, rfl⟩
  | chain => exact ⟨_, rfl⟩
  | help => exact ⟨_, rfl⟩
  | quit => exact absurd rfl hc

open Transcript

variable {prompted : Bool}

/-- A line quits and prints nothing, or says something and has others after it. -/
theorem reply_answer (line : String) (d : Debugger) :
    (answer line d).value.2 = ⟨[], true⟩ ∨ ∃ said, (answer line d).value.2 = .say said := by
  unfold answer
  rcases parse line with refusal | _ | command
  · exact .inr ⟨_, rfl⟩
  · exact .inr ⟨_, rfl⟩
  · by_cases hc : command = .quit
    · subst hc
      exact .inl rfl
    · exact .inr (reply_execute d hc)

/-- What a transcript makes of an answer. -/
def Transcript.add (x : Transcript) (answered : Debugger × Reply) : Transcript :=
  if answered.2.quits then { x with debugger := answered.1, ending := .quit }
  else { x with debugger := answered.1, printed := x.printed ++ [answered.2.text] }

theorem take_of_text {x : Transcript} (hx : x.ending = .exhausted) {bytes : List UInt8}
    {line : String} (hline : Text.ofUtf8? bytes = some line) :
    x.take bytes = x.add <$> answer line x.debugger := by
  simp only [take, if_neg (not_not_intro hx), hline, answer]
  rcases parse line with refusal | _ | command
  · simp [Transcript.add, Reply.say, Reply.text]
  · simp [Transcript.add, Reply.say, Reply.text]
  · rw [← bind_pure_comp]
    refine Traced.bind_congr_value ?_
    by_cases hc : command = .quit
    · subst hc
      rfl
    · obtain ⟨said, hsaid⟩ := reply_execute x.debugger hc
      rcases hv : (x.debugger.execute command).value with ⟨d, reply⟩
      rw [hv] at hsaid
      obtain rfl : reply = .say said := hsaid
      simp only [if_neg hc, Transcript.add, Reply.say, Bool.false_eq_true, if_false]

theorem outcome_said (x : Transcript) (d : Debugger) (text : String) :
    (outcome prompted ⟨d, x.printed ++ [text], x.ending⟩).output
      = (x.outcome prompted).output ++ (text ++ prompt prompted) := by
  simp [outcome, String.join_append]

theorem behind_runLines (lines : List (List UInt8)) : ∀ x : Transcript, x.ending = .exhausted →
    Outcome.behind (x.outcome prompted).output <$> runLines prompted lines x.debugger
      = outcome prompted <$> lines.foldlM take x := by
  induction lines with
  | nil =>
    intro x hx
    rw [List.foldlM_nil, map_pure, runLines, map_pure]
    simp [Outcome.behind, outcome, hx]
  | cons bytes lines ih =>
    intro x hx
    rw [List.foldlM_cons, runLines]
    rcases hline : Text.ofUtf8? bytes with _ | line
    · rw [take, if_neg (not_not_intro hx), hline]
      simp only [pure_bind, map_pure]
      rw [foldlM_take_of_ended (by simp), map_pure]
      simp [Outcome.behind, outcome]
    · rw [take_of_text hx hline, bind_map_left]
      simp only [map_bind]
      refine Traced.bind_congr_value ?_
      rcases hv : (answer line x.debugger).value with ⟨d, reply⟩
      have hreply := reply_answer line x.debugger
      rw [hv] at hreply
      obtain rfl | ⟨said, rfl⟩ : reply = ⟨[], true⟩ ∨ ∃ said, reply = .say said := hreply
      · have hadd : x.add (d, ⟨[], true⟩) = ⟨d, x.printed, .quit⟩ := rfl
        rw [hadd, foldlM_take_of_ended (by simp), map_pure]
        simp [Outcome.behind, outcome, Reply.text]
      · have hadd : x.add (d, .say said) = ⟨d, x.printed ++ [(Reply.say said).text], x.ending⟩ := rfl
        rw [hadd, ← ih ⟨d, x.printed ++ [(Reply.say said).text], x.ending⟩ hx, outcome_said]
        simp [Outcome.behind_behind, Reply.say]

theorem run_false (script : List UInt8) (d : Debugger) :
    run false script d = runLines false (Text.lines script) d := by
  have hprompt : Outcome.behind (prompt false) = id := by
    funext o
    simp [Outcome.behind, prompt]
  rw [run, bind_pure_comp, hprompt, id_map]

theorem runLines_eq (prompted : Bool) (lines : List (List UInt8)) (d : Debugger) :
    runLines prompted lines d = outcome prompted <$> lines.foldlM take (start d) := by
  have hstart : Outcome.behind (outcome prompted (start d)).output = id := by
    funext o
    simp [Outcome.behind, outcome, start]
  rw [← behind_runLines lines (start d) rfl, hstart, id_map]
  rfl

theorem run_eq (prompted : Bool) (script : List UInt8) (d : Debugger) :
    run prompted script d = (fun y => (outcome prompted y).behind (prompt prompted))
      <$> (Text.lines script).foldlM take (start d) := by
  rw [run, runLines_eq, bind_map_left, ← bind_pure_comp]

theorem foldlM_take_append {script : List UInt8} (hend : script.getLast? = some Text.lineFeed)
    (later : List UInt8) (x : Transcript) :
    (Text.lines (script ++ later)).foldlM take x
      = (Text.lines script).foldlM take x >>= fun y => (Text.lines later).foldlM take y := by
  obtain ⟨before, rfl⟩ := List.getLast?_eq_some_iff.1 hend
  rw [List.append_assoc, List.singleton_append, Text.lines_append, List.foldlM_append]

theorem ending_foldlM_take (lines : List (List UInt8)) : ∀ x : Transcript, x.ending ≠ .notText →
    (∀ line ∈ lines, (Text.ofUtf8? line).isSome) → (lines.foldlM take x).value.ending ≠ .notText := by
  induction lines with
  | nil => exact fun x hx _ => hx
  | cons bytes lines ih =>
    intro x hx htexts
    rw [List.foldlM_cons, Traced.value_bind]
    refine ih _ ?_ fun line hline => htexts line (List.mem_cons_of_mem _ hline)
    obtain ⟨line, hline⟩ := Option.isSome_iff_exists.1 (htexts bytes List.mem_cons_self)
    by_cases hgo : x.ending = .exhausted
    · rw [take_of_text hgo hline, Traced.value_map, Transcript.add]
      split
      · exact nofun
      · exact hx
    · have htake : x.take bytes = pure x := if_pos hgo
      rw [htake]
      exact hx

/-- Running a script is folding over its lines, which end at its line feeds, and a prompt is printed
before each line and changes nothing else. What follows a script that has ended is not noticed, and
a text that came to its last line without quitting can be gone on with. -/
theorem run_folds (script : List UInt8) (d : Debugger) :
    let pieces := script.splitOn Text.lineFeed
    let x := (Text.lines script).foldlM Transcript.take (.start d)
    Text.lines script
        = pieces.dropLast.map Text.dropReturn ++ pieces.getLast?.toList.filter (· ≠ [])
      ∧ run false script d = (fun y => ⟨y.debugger, String.join y.printed, y.ending⟩) <$> x
      ∧ run true script d = (fun y => ⟨y.debugger,
        "(b9) " ++ String.join (y.printed.map (· ++ "(b9) ")), y.ending⟩) <$> x
      ∧ (script.getLast? = some Text.lineFeed → x.value.ending ≠ .exhausted →
        ∀ prompted later, run prompted (script ++ later) d = run prompted script d)
      ∧ (script.getLast? = some Text.lineFeed → (Text.ofUtf8? script).isSome →
        x.value.ending ≠ .quit → ∀ next, run false (script ++ next) d = do
          let o ← run false script d
          let o' ← run false next o.debugger
          return o'.behind o.output) := by
  intro pieces x
  refine ⟨Text.lines_eq_splitOn script, ?_, run_eq true script d, ?_, ?_⟩
  · rw [run_eq]
    simp [Outcome.behind, outcome, prompt, x]
  · intro hend hended prompted later
    rw [run_eq, run_eq, foldlM_take_append hend]
    congr 1
    exact (Traced.bind_congr_value (foldlM_take_of_ended hended _)).trans (bind_pure _)
  · intro hend htext hquit next
    have hgo : x.value.ending = .exhausted := by
      have htexts := ending_foldlM_take (Text.lines script) (start d) nofun fun line hline =>
        Text.ofUtf8?_isSome_of_mem_lines htext hline
      rcases hending : x.value.ending
      · rfl
      · exact absurd hending hquit
      · exact absurd hending htexts
    rw [run_false, run_false, runLines_eq, runLines_eq, foldlM_take_append hend, map_bind,
      bind_map_left]
    refine Traced.bind_congr_value ?_
    rw [run_false, bind_pure_comp]
    exact (behind_runLines (Text.lines next) x.value hgo).symm

end Shell

end MixedStack
