import Mathlib.Data.List.Induction
import Mathlib.Data.List.Perm.Basic
import MixedStack.CommandLine

/-!
# What the command line says

A command line is a row of groups: an option with the path behind it, an option by itself, or a
recording. What groups ask for does not depend on how those of different kinds are mixed
(`CommandLine.parse_groups`), and a command line that is no row of groups has a first argument that
offends (`CommandLine.exists_groups`). So the groups and the first offence say what the command line
is read as (`CommandLine.grammar_exact`).
-/

namespace MixedStack.CommandLine

/-- An argument that looks like an option. -/
def Dashed (argument : String) : Prop :=
  argument.toList.head? = some '-'

instance (argument : String) : Decidable (Dashed argument) :=
  inferInstanceAs (Decidable (_ = _))

/-- Arguments that belong together. A path is taken as it is, whatever it looks like. -/
inductive Group where
  | settings (path : String)
  | script (short : Bool) (path : String)
  | verbose (short : Bool)
  | recording (path : String) (hplain : ¬ Dashed path)
  deriving DecidableEq

namespace Group

def arguments : Group → List String
  | settings path => ["--config", path]
  | script short path => [if short then "-x" else "--batch", path]
  | verbose short => [if short then "-v" else "--verbose"]
  | recording path _ => [path]

def settings? : Group → Option String
  | settings path => some path
  | _ => none

def script? : Group → Option String
  | script _ path => some path
  | _ => none

def recording? : Group → Option String
  | recording path _ => some path
  | _ => none

def isVerbose : Group → Bool
  | verbose _ => true
  | _ => false

end Group

def spelled (gs : List Group) : List String :=
  gs.flatMap Group.arguments

def recordings (gs : List Group) : List String :=
  gs.filterMap Group.recording?

/-- What groups ask for. Of several paths the last one counts. -/
def Draft.of (gs : List Group) : Draft where
  recording := (recordings gs).getLast?
  settings := (gs.filterMap Group.settings?).getLast?
  script := (gs.filterMap Group.script?).getLast?
  verbose := gs.any Group.isVerbose

def Draft.take (d : Draft) (g : Group) : Draft where
  recording := g.recording?.or d.recording
  settings := g.settings?.or d.settings
  script := g.script?.or d.script
  verbose := d.verbose || g.isVerbose

/-- The first argument offends, behind groups that name a recording if `given`. -/
inductive Offends (given : Prop) : List String → ArgumentFault → Prop where
  | settingsPath : Offends given ["--config"] .settingsPathMissing
  | scriptPath (short : Bool) :
    Offends given [if short then "-x" else "--batch"] .scriptPathMissing
  | unknown (argument : String) (rest : List String) (hdashed : Dashed argument)
    (hnone : argument ∉ ["--config", "--batch", "-x", "-v", "--verbose"]) :
    Offends given (argument :: rest) (.unknownOption argument)
  | second (path : String) (rest : List String) (hplain : ¬ Dashed path) (hgiven : given) :
    Offends given (path :: rest) .secondRecording

section Kinds

variable {argument : String}

theorem kind_settings : Kind.of "--config" = .settings := rfl

theorem kind_script (short : Bool) : Kind.of (if short then "-x" else "--batch") = .script := by
  cases short <;> rfl

theorem kind_verbose (short : Bool) : Kind.of (if short then "-v" else "--verbose") = .verbose := by
  cases short <;> rfl

theorem kind_unknown (hdashed : Dashed argument)
    (hnone : argument ∉ ["--config", "--batch", "-x", "-v", "--verbose"]) :
    Kind.of argument = .unknown := by
  unfold Dashed at hdashed
  simp_all [Kind.of]

theorem kind_recording (hplain : ¬ Dashed argument) : Kind.of argument = .recording := by
  have hne : ∀ option : String, Dashed option → argument ≠ option := by
    rintro option h rfl
    exact hplain h
  unfold Dashed at hplain
  simp [Kind.of, hplain, hne "--config" rfl, hne "--batch" rfl, hne "-x" rfl, hne "-v" rfl,
    hne "--verbose" rfl]

/-- Every argument is an option of one kind or another, an unknown one, or the name of a file. -/
theorem argument_cases (argument : String) :
    argument = "--config" ∨ (∃ short : Bool, argument = if short then "-x" else "--batch")
      ∨ (∃ short : Bool, argument = if short then "-v" else "--verbose")
      ∨ (Dashed argument ∧ argument ∉ ["--config", "--batch", "-x", "-v", "--verbose"])
      ∨ ¬ Dashed argument := by
  by_cases h : argument ∈ ["--config", "--batch", "-x", "-v", "--verbose"]
  · simp only [List.mem_cons, List.not_mem_nil, or_false] at h
    rcases h with rfl | rfl | rfl | rfl | rfl <;> simp
  · by_cases hd : Dashed argument
    · exact .inr (.inr (.inr (.inl ⟨hd, h⟩)))
    · exact .inr (.inr (.inr (.inr hd)))

end Kinds

section Reading

variable {d : Draft} {rest : List String}

theorem parseFrom_plain (d : Draft) {path : String} (hplain : ¬ Dashed path) (rest : List String) :
    parseFrom d (path :: rest) = if d.recording.isSome then .error .secondRecording
      else parseFrom { d with recording := some path } rest := by
  rw [parseFrom.eq_def]
  simp only [kind_recording hplain]

theorem parseFrom_group (d : Draft) (g : Group) (rest : List String) :
    parseFrom d (g.arguments ++ rest)
      = if g.recording?.isSome ∧ d.recording.isSome then .error .secondRecording
        else parseFrom (d.take g) rest := by
  cases g with
  | settings path =>
    rw [Group.arguments, List.cons_append, parseFrom.eq_def]
    simp [kind_settings, Draft.take, Group.recording?, Group.settings?, Group.script?,
      Group.isVerbose]
  | script short path =>
    rw [Group.arguments, List.cons_append, parseFrom.eq_def]
    simp [kind_script, Draft.take, Group.recording?, Group.settings?, Group.script?,
      Group.isVerbose]
  | verbose short =>
    rw [Group.arguments, List.cons_append, parseFrom.eq_def]
    simp [kind_verbose, Draft.take, Group.recording?, Group.settings?, Group.script?,
      Group.isVerbose]
  | recording path hplain =>
    rw [Group.arguments, List.cons_append, parseFrom_plain d hplain]
    simp [Draft.take, Group.recording?, Group.settings?, Group.script?, Group.isVerbose]

theorem parseFrom_offends {given : Prop} {fault : ArgumentFault} (h : Offends given rest fault)
    (hd : given → d.recording.isSome) : parseFrom d rest = .error fault := by
  cases h with
  | settingsPath => rfl
  | scriptPath short => cases short <;> rfl
  | unknown argument rest hdashed hnone =>
    rw [parseFrom.eq_def]
    simp only [kind_unknown hdashed hnone]
  | second path rest hplain hgiven => rw [parseFrom_plain d hplain, if_pos (hd hgiven)]

theorem recordings_concat (gs : List Group) (g : Group) :
    recordings (gs ++ [g]) = recordings gs ++ g.recording?.toList := by
  rcases hg : g.recording? with _ | path <;> simp [recordings, hg]

theorem of_concat (gs : List Group) (g : Group) : Draft.of (gs ++ [g]) = (Draft.of gs).take g := by
  have hlast : ∀ f : Group → Option String,
      ((gs ++ [g]).filterMap f).getLast? = (f g).or (gs.filterMap f).getLast? := by
    intro f
    rcases hg : f g with _ | path <;> simp [hg]
  simp only [Draft.of, Draft.take, recordings, hlast, List.any_append, List.any_cons, List.any_nil,
    Bool.or_false]

theorem spelled_concat (gs : List Group) (g : Group) (rest : List String) :
    spelled (gs ++ [g]) ++ rest = spelled gs ++ (g.arguments ++ rest) := by
  simp [spelled]

theorem isSome_recording_of (gs : List Group) :
    (Draft.of gs).recording.isSome ↔ recordings gs ≠ [] := by
  simp [Draft.of]

/-- Groups are read as what they ask for together, as long as they name at most one recording. -/
theorem parse_groups (gs : List Group) (rest : List String) :
    parse (spelled gs ++ rest)
      = if (recordings gs).length ≤ 1 then parseFrom (.of gs) rest
        else .error .secondRecording := by
  induction gs using List.reverseRecOn generalizing rest with
  | nil => rfl
  | append_singleton gs g ih =>
    rw [spelled_concat, ih, parseFrom_group, recordings_concat, of_concat]
    simp only [isSome_recording_of]
    rcases g.recording? with _ | path
    · simp
    · rcases recordings gs with _ | ⟨first, _ | ⟨second, more⟩⟩ <;> simp

end Reading

section Splitting

theorem Offends.imp {given given' : Prop} {rest : List String} {fault : ArgumentFault}
    (h : Offends given rest fault) (himp : given → given') : Offends given' rest fault := by
  cases h with
  | settingsPath => exact .settingsPath
  | scriptPath short => exact .scriptPath short
  | unknown argument rest hdashed hnone => exact .unknown argument rest hdashed hnone
  | second path rest hplain hgiven => exact .second path rest hplain (himp hgiven)

/-- All arguments belong to groups with at most one recording, up to the first that offends. -/
theorem exists_groups (given : Prop) : ∀ arguments : List String,
    ∃ gs rest, arguments = spelled gs ++ rest
      ∧ (recordings gs).length ≤ 1 ∧ (given → recordings gs = [])
      ∧ (rest = [] ∨ ∃ fault, Offends (given ∨ recordings gs ≠ []) rest fault)
  | [] => ⟨[], [], rfl, by simp [recordings], fun _ => rfl, .inl rfl⟩
  | argument :: rest => by
    have hoffends : ∀ fault, Offends given (argument :: rest) fault →
        ∃ gs rest', argument :: rest = spelled gs ++ rest'
          ∧ (recordings gs).length ≤ 1 ∧ (given → recordings gs = [])
          ∧ (rest' = [] ∨ ∃ fault, Offends (given ∨ recordings gs ≠ []) rest' fault) :=
      fun fault h =>
        ⟨[], _, rfl, by simp [recordings], fun _ => rfl, .inr ⟨fault, h.imp .inl⟩⟩
    rcases argument_cases argument with
      rfl | ⟨short, rfl⟩ | ⟨short, rfl⟩ | ⟨hdashed, hnone⟩ | hplain
    · rcases rest with _ | ⟨path, rest⟩
      · exact hoffends _ .settingsPath
      · obtain ⟨gs, last, rfl, h⟩ := exists_groups given rest
        exact ⟨.settings path :: gs, last, rfl, h⟩
    · rcases rest with _ | ⟨path, rest⟩
      · exact hoffends _ (.scriptPath short)
      · obtain ⟨gs, last, rfl, h⟩ := exists_groups given rest
        exact ⟨.script short path :: gs, last, rfl, h⟩
    · obtain ⟨gs, last, rfl, h⟩ := exists_groups given rest
      exact ⟨.verbose short :: gs, last, rfl, h⟩
    · exact hoffends _ (.unknown argument rest hdashed hnone)
    · by_cases hgiven : given
      · exact hoffends _ (.second argument rest hplain hgiven)
      -- behind this recording another one offends
      · obtain ⟨gs, last, rfl, -, hnone, hlast⟩ := exists_groups True rest
        refine ⟨.recording argument hplain :: gs, last, rfl, ?_, fun h => absurd h hgiven, ?_⟩
        · have hone : recordings (.recording argument hplain :: gs) = argument :: recordings gs :=
            rfl
          simp [hone, hnone trivial]
        · refine hlast.imp_right fun ⟨fault, h⟩ => ⟨fault, h.imp fun _ => ?_⟩
          exact .inr (List.cons_ne_nil _ _)
  termination_by arguments => arguments.length

theorem arguments_append_inj {g g' : Group} {rest rest' : List String}
    (h : g.arguments ++ rest = g'.arguments ++ rest') : g = g' ∧ rest = rest' := by
  -- an argument is of one kind only, so that two groups that begin alike are of one kind
  have hkind := congrArg (fun as => as.head?.map Kind.of) h
  rcases g with path | ⟨short, path⟩ | short | ⟨path, hplain⟩ <;>
    rcases g' with path' | ⟨short', path'⟩ | short' | ⟨path', hplain'⟩ <;>
    simp [Group.arguments, kind_settings, kind_script, kind_verbose, kind_recording, *] at hkind h ⊢
  case settings.settings => exact h
  case script.script => cases short <;> cases short' <;> simp_all
  case verbose.verbose => cases short <;> cases short' <;> simp_all
  case recording.recording => exact h

theorem spelled_injective : Function.Injective spelled := by
  intro gs
  induction gs with
  | nil =>
    rintro (_ | ⟨g, gs⟩) h
    · rfl
    · cases g <;> simp [spelled, Group.arguments] at h
  | cons g gs ih =>
    rintro (_ | ⟨g', gs'⟩) h
    · cases g <;> simp [spelled, Group.arguments] at h
    · obtain ⟨rfl, hrest⟩ := arguments_append_inj h
      rw [ih hrest]

end Splitting

theorem parse_of_offends {gs : List Group} {rest : List String} {fault : ArgumentFault}
    (hone : (recordings gs).length ≤ 1) (h : Offends (recordings gs ≠ []) rest fault) :
    parse (spelled gs ++ rest) = .error fault := by
  rw [parse_groups, if_pos hone]
  exact parseFrom_offends h (isSome_recording_of gs).2

theorem parse_spelled {gs : List Group} (hone : (recordings gs).length ≤ 1) :
    parse (spelled gs) = (Draft.of gs).finish := by
  have hparse := parse_groups gs []
  rwa [List.append_nil, if_pos hone] at hparse

theorem finish_eq_ok {d : Draft} {o : Options} :
    d.finish = .ok o ↔ d.recording = some o.recording ∧ o.settings = d.settings
      ∧ o.script = d.script ∧ o.verbose = d.verbose := by
  obtain ⟨recording, settings, script, verbose⟩ := d
  obtain ⟨recording', settings', script', verbose'⟩ := o
  unfold Draft.finish
  rcases recording with _ | path
  · simp
  · simp [eq_comm]

theorem finish_eq_error {d : Draft} {fault : ArgumentFault} :
    d.finish = .error fault ↔ d.recording = none ∧ fault = .noRecording := by
  unfold Draft.finish
  rcases d.recording with _ | path
  · simp [eq_comm]
  · simp

theorem recordings_eq_singleton {gs : List Group} {path : String}
    (hone : (recordings gs).length ≤ 1) (h : (Draft.of gs).recording = some path) :
    recordings gs = [path] := by
  simp only [Draft.of] at h
  rcases hr : recordings gs with _ | ⟨first, _ | ⟨second, more⟩⟩ <;> simp_all

/-- What groups ask for depends on the order of paths for the same purpose only. -/
theorem parse_perm {gs gs' : List Group} (h : gs.Perm gs')
    (hsettings : gs.filterMap Group.settings? = gs'.filterMap Group.settings?)
    (hscript : gs.filterMap Group.script? = gs'.filterMap Group.script?) (rest : List String) :
    parse (spelled gs ++ rest) = parse (spelled gs' ++ rest) := by
  have hperm : (recordings gs).Perm (recordings gs') := h.filterMap _
  rw [parse_groups, parse_groups, ← hperm.length_eq]
  by_cases hone : (recordings gs).length ≤ 1
  · have hrecordings : recordings gs = recordings gs' := by
      rcases hr : recordings gs with _ | ⟨path, _ | ⟨path', more⟩⟩
      · exact (List.nil_perm.1 (hr ▸ hperm)).symm
      · exact List.singleton_perm.1 (hr ▸ hperm)
      · simp [hr] at hone
    have hverbose : gs.any Group.isVerbose = gs'.any Group.isVerbose := h.any_eq
    simp only [Draft.of, hrecordings, hsettings, hscript, hverbose]
  · rw [if_neg hone, if_neg hone]

/-- Arguments split into groups in one way only. They are read if they are groups and one of them
names the recording, and then the last path for each purpose counts. Otherwise the first argument
that offends is reported, or that there is no recording. So groups may stand in any order that keeps
the paths for the same purpose in theirs. -/
theorem grammar_exact :
    Function.Injective spelled
      ∧ (∀ arguments o, parse arguments = .ok o
        ↔ ∃ gs, arguments = spelled gs ∧ recordings gs = [o.recording]
          ∧ o.settings = (gs.filterMap Group.settings?).getLast?
          ∧ o.script = (gs.filterMap Group.script?).getLast?
          ∧ o.verbose = gs.any Group.isVerbose)
      ∧ (∀ arguments fault, parse arguments = .error fault
        ↔ (∃ gs rest, arguments = spelled gs ++ rest ∧ (recordings gs).length ≤ 1
            ∧ Offends (recordings gs ≠ []) rest fault)
          ∨ fault = .noRecording ∧ fault.message = usage
            ∧ ∃ gs, arguments = spelled gs ∧ recordings gs = [])
      ∧ ∀ gs gs' : List Group, gs.Perm gs' →
        gs.filterMap Group.settings? = gs'.filterMap Group.settings? →
        gs.filterMap Group.script? = gs'.filterMap Group.script? →
          ∀ rest, parse (spelled gs ++ rest) = parse (spelled gs' ++ rest) := by
  refine ⟨spelled_injective, fun arguments o => ⟨fun h => ?_, ?_⟩,
    fun arguments fault => ⟨fun h => ?_, ?_⟩, fun gs gs' => parse_perm⟩
  · obtain ⟨gs, rest, rfl, hone, -, rfl | ⟨fault, hoffends⟩⟩ := exists_groups False arguments
    · rw [List.append_nil, parse_spelled hone, finish_eq_ok] at h
      obtain ⟨hr, hrest⟩ := h
      exact ⟨gs, List.append_nil _, recordings_eq_singleton hone hr, hrest⟩
    · rw [parse_of_offends hone (by simpa using hoffends)] at h
      cases h
  · rintro ⟨gs, rfl, hr, hsettings, hscript, hverbose⟩
    rw [parse_spelled (by simp [hr]), finish_eq_ok]
    exact ⟨by simp [Draft.of, hr], hsettings, hscript, hverbose⟩
  · obtain ⟨gs, rest, rfl, hone, -, rfl | ⟨fault', hoffends⟩⟩ := exists_groups False arguments
    · rw [List.append_nil, parse_spelled hone, finish_eq_error] at h
      obtain ⟨hr, rfl⟩ := h
      exact .inr ⟨rfl, rfl, gs, List.append_nil _, by simpa [Draft.of] using hr⟩
    · rw [false_or] at hoffends
      rw [parse_of_offends hone hoffends] at h
      cases h
      exact .inl ⟨gs, rest, rfl, hone, hoffends⟩
  · rintro (⟨gs, rest, rfl, hone, hoffends⟩ | ⟨rfl, -, gs, rfl, hr⟩)
    · exact parse_of_offends hone hoffends
    · rw [parse_spelled (by simp [hr])]
      simp [Draft.finish, Draft.of, hr]

/-- A script that is named like an option, and a path that looks like one. -/
def mixed : List Group :=
  [.script true "--config", .settings "-", .recording "demo.json" (by decide), .verbose false,
    .settings "b.json"]

/-- The same groups, the paths of the settings still in their order. -/
def sorted : List Group :=
  [.verbose false, .settings "-", .settings "b.json", .recording "demo.json" (by decide),
    .script true "--config"]

theorem grammar_exact_mixed :
    mixed.Perm sorted
      ∧ mixed.filterMap Group.settings? = sorted.filterMap Group.settings?
      ∧ mixed.filterMap Group.script? = sorted.filterMap Group.script?
      ∧ parse ["-x", "--config", "--config", "-", "demo.json", "--verbose", "--config", "b.json"]
        = .ok ⟨"demo.json", some "b.json", some "--config", true⟩
      ∧ parse ["--verbose", "--config", "-", "--config", "b.json", "demo.json", "-x", "--config"]
        = .ok ⟨"demo.json", some "b.json", some "--config", true⟩ := by
  obtain ⟨-, hread, -, hperm⟩ := grammar_exact
  have hp : mixed.Perm sorted := by decide
  have hok := (hread _ ⟨"demo.json", some "b.json", some "--config", true⟩).2
    ⟨mixed, rfl, rfl, rfl, rfl, rfl⟩
  have hsame := hperm mixed sorted hp rfl rfl []
  rw [List.append_nil, List.append_nil] at hsame
  exact ⟨hp, rfl, rfl, hok, hsame.symm.trans hok⟩

end MixedStack.CommandLine
