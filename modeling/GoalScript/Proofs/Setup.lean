import GoalScript.Proofs.Conditions

namespace GoalScript

/-- The last one declared of the goals of a name, up to case. -/
def lastNamed? (goals : List Goal) (name : String) : Option Goal :=
  goals.reverse.find? fun goal => Text.lowercase goal.name == Text.lowercase name

/-- None of the setup goals declared is replaced by an ordinary goal in the end. -/
def LibraryFile.KeepsSetup (file : LibraryFile) : Prop :=
  ∀ goal ∈ file.goals, goal.isSetup = true →
    ∀ last, lastNamed? file.goals goal.name = some last → last.isSetup = true

def LibraryFile.NamesSetupOnce (file : LibraryFile) : Prop :=
  (file.goals.filter Goal.isSetup).Pairwise fun g h =>
    Text.lowercase g.name ≠ Text.lowercase h.name

instance (file : LibraryFile) : Decidable file.NamesSetupOnce :=
  inferInstanceAs (Decidable (List.Pairwise _ _))

namespace Library

variable {file : LibraryFile} {goals : List Goal} {lib : Library} {name : String} {g h : Goal}

theorem lowercase_of_lastNamed (found : lastNamed? goals name = some g) :
    Text.lowercase g.name = Text.lowercase name := by
  simpa using List.find?_some found

theorem mem_of_lastNamed (found : lastNamed? goals name = some g) : g ∈ goals :=
  List.mem_reverse.mp (List.mem_of_find?_eq_some found)

theorem exists_lastNamed (mem : g ∈ goals) : ∃ last, lastNamed? goals g.name = some last :=
  Option.isSome_iff_exists.mp (List.find?_isSome.mpr ⟨g, by simpa using mem, by simp⟩)

theorem lastNamed_cons (g : Goal) (goals : List Goal) (name : String) :
    lastNamed? (g :: goals) name = (lastNamed? goals name).or
      (if Text.lowercase g.name = Text.lowercase name then some g else none) := by
  rw [lastNamed?, List.reverse_cons, List.find?_append]
  by_cases named : Text.lowercase g.name = Text.lowercase name
  · simp [lastNamed?, named]
  · simp [lastNamed?, named]

theorem get?_insert (lib : Library) (g : Goal) (name : String) :
    (lib.insert g).get? name =
      if Text.lowercase name = Text.lowercase g.name then some g.kept else lib.get? name :=
  Table.get?_insert _ _ _ _

theorem get?_foldl_insert (goals : List Goal) (lib : Library) (name : String) :
    (goals.foldl insert lib).get? name =
      ((lastNamed? goals name).map Goal.kept).or (lib.get? name) := by
  induction goals generalizing lib with
  | nil => rfl
  | cons first rest ih =>
    rw [List.foldl_cons, ih, get?_insert, lastNamed_cons]
    by_cases named : Text.lowercase first.name = Text.lowercase name
    · rw [if_pos named, if_pos named.symm]
      cases lastNamed? rest name <;> rfl
    · rw [if_neg named, if_neg (Ne.symm named), Option.or_none]

/-- A name gives the last goal declared under it. -/
theorem get?_ofFile (file : LibraryFile) (name : String) :
    (ofFile file).get? name = (lastNamed? file.goals name).map Goal.kept := by
  rw [ofFile, get?_foldl_insert]
  exact Option.or_none

theorem lowercase_of_get? (found : (ofFile file).get? name = some g) :
    Text.lowercase g.name = Text.lowercase name := by
  rw [get?_ofFile] at found
  obtain ⟨last, latest, rfl⟩ := Option.map_eq_some_iff.mp found
  change Text.lowercase last.name = _
  exact lowercase_of_lastNamed latest

/-- Every setup goal declared gets a place in line. -/
theorem setup_foldl_insert (goals : List Goal) (lib : Library) :
    (goals.foldl insert lib).setup =
      lib.setup ++ (goals.filter Goal.isSetup).map Goal.name := by
  induction goals generalizing lib with
  | nil => simp
  | cons first rest ih =>
    rw [List.foldl_cons, ih, insert, List.filter_cons]
    split <;> simp

/-- For each place in line the goal is run that the name then gives. -/
theorem setupGoals_ofFile (file : LibraryFile) : (ofFile file).setupGoals =
    (file.goals.filter Goal.isSetup).filterMap fun goal => (ofFile file).get? goal.name := by
  have setup : (ofFile file).setup = (file.goals.filter Goal.isSetup).map Goal.name := by
    rw [ofFile, setup_foldl_insert, List.nil_append]
  rw [setupGoals, setup, List.filterMap_map]
  rfl

/-- What is in line is what its name leads to. -/
theorem get?_of_mem_setupGoals (mem : g ∈ (ofFile file).setupGoals) :
    (ofFile file).get? g.name = some g := by
  rw [setupGoals_ofFile] at mem
  obtain ⟨declared, -, found⟩ := List.mem_filterMap.mp mem
  have named := lowercase_of_get? found
  rwa [get?, named]

theorem mem_setupGoals_of_get? (found : (ofFile file).get? name = some g)
    (setup : g.isSetup = true) : g ∈ (ofFile file).setupGoals := by
  have named := lowercase_of_get? found
  have last := found
  rw [get?_ofFile] at last
  obtain ⟨declared, latest, rfl⟩ := Option.map_eq_some_iff.mp last
  rw [setupGoals_ofFile]
  refine List.mem_filterMap.mpr ⟨declared, List.mem_filter.mpr ⟨mem_of_lastNamed latest, setup⟩, ?_⟩
  rw [get?, ← named] at found
  exact found

/-- Only setup goals are in line exactly if none of them is replaced by an ordinary one. -/
theorem setupGoals_isSetup_iff (file : LibraryFile) :
    (∀ g ∈ (ofFile file).setupGoals, g.isSetup = true) ↔ file.KeepsSetup := by
  simp only [setupGoals_ofFile, get?_ofFile, List.mem_filterMap, List.mem_filter]
  constructor
  · intro all goal mem setup last latest
    exact all last.kept ⟨goal, ⟨mem, setup⟩, by rw [latest]; rfl⟩
  · rintro keeps g ⟨declared, ⟨mem, setup⟩, found⟩
    obtain ⟨last, latest, rfl⟩ := Option.map_eq_some_iff.mp found
    exact keeps declared mem setup last latest

/-- No goal is in line twice exactly if no two setup goals have one name. -/
theorem setupGoals_nodup_iff (file : LibraryFile) :
    (ofFile file).setupGoals.Nodup ↔ file.NamesSetupOnce := by
  rw [setupGoals_ofFile, List.Nodup, List.pairwise_filterMap]
  refine List.Pairwise.iff_of_mem fun {g h} inG inH => ?_
  constructor
  · intro differ same
    obtain ⟨last, latest⟩ := exists_lastNamed (List.mem_filter.mp inG).1
    have found : (ofFile file).get? g.name = some last.kept := by rw [get?_ofFile, latest]; rfl
    have found' : (ofFile file).get? h.name = some last.kept := by rwa [get?, ← same]
    exact differ _ found _ found' rfl
  · intro differ a found b found' same
    subst same
    exact differ ((lowercase_of_get? found).symm.trans (lowercase_of_get? found'))

end Library

namespace Run

variable {app : App} {goals : List Goal} {names : List String} {w v : World}

/-- The run of a goal in line: which one, where it was begun and how it ended. -/
structure Round where
  goal : Goal
  start : World
  ending : Ending Control

/-- The goals in line are run one after the other, up to the first that fails. -/
inductive Rounds (app : App) : List Goal → World → List Round → Ending Unit → Prop where
  | done {w : World} : Rounds app [] w [] (.ok (), w)
  | failed {goal : Goal} {rest : List Goal} {w v : World} {e : EngineError}
    (h : (runGoal app { goal }).run w = (.error e, v)) :
    Rounds app (goal :: rest) w [⟨goal, w, (.error e, v)⟩] (.error e, v)
  | gone {goal : Goal} {rest : List Goal} {w v : World} {control : Control} {rounds : List Round}
    {r : Ending Unit} (h : (runGoal app { goal }).run w = (.ok control, v))
    (others : Rounds app rest v rounds r) :
    Rounds app (goal :: rest) w (⟨goal, w, (.ok control, v)⟩ :: rounds) r

namespace Rounds

variable {rounds : List Round} {r : Ending Unit}

theorem exists_of (app : App) (goals : List Goal) (w : World) :
    ∃ rounds r, Rounds app goals w rounds r := by
  induction goals generalizing w with
  | nil => exact ⟨[], _, .done⟩
  | cons goal rest ih =>
    rcases h : (runGoal app { goal }).run w with ⟨e | control, v⟩
    · exact ⟨_, _, .failed h⟩
    · obtain ⟨rounds, r, others⟩ := ih v
      exact ⟨_, _, .gone h others⟩

theorem run_eq (h : Rounds app goals w rounds r) (result : Option Value) :
    ∃ last, (runAll app result goals).run w = (r.1.map fun _ => last, r.2) := by
  induction h generalizing result with
  | done => exact ⟨result, rfl⟩
  | failed h => exact ⟨result, run_bind_of_error h⟩
  | @gone goal rest w v control rounds r h _ ih =>
    obtain ⟨last, others⟩ := ih (resultOf control)
    exact ⟨last, (run_bind_of_ok h).trans others⟩

theorem isPrefix (h : Rounds app goals w rounds r) : rounds.map Round.goal <+: goals := by
  induction h with
  | done => exact List.prefix_rfl
  | @failed goal rest w v e _ => exact ⟨rest, rfl⟩
  | gone _ _ ih => exact List.cons_prefix_cons.mpr ⟨rfl, ih⟩

theorem all_of_ok (h : Rounds app goals w rounds r) (hr : r.1 = .ok ()) :
    rounds.map Round.goal = goals := by
  induction h with
  | done => rfl
  | failed _ => cases hr
  | gone _ _ ih => exact congrArg _ (ih hr)

end Rounds

def asked (app : App) (names : List String) : List String :=
  if names.isEmpty then app.library.defaultGoal.toList else names

def afterSetup (app : App) (goals : List Goal) : Run (Option Value) := do
  appEvents app (runGoal app) .startOfApp
  let result ← runAll app none goals
  appEvents app (runGoal app) .endOfApp
  runDeferred app (runGoal app)
  return result

theorem session_eq (app : App) (names : List String) : session app names = (do
    let goals ← (asked app names).mapM (findGoal app)
    let _ ← runAll app none app.library.setupGoals
    afterSetup app goals) := rfl

theorem run_findGoal_of_unknown {name : String} (unknown : app.library.get? name = none) :
    ∃ e, (findGoal app name).run w = (.error e, w) := by
  rw [findGoal, unknown]
  exact ⟨_, rfl⟩

theorem run_findGoals_of_known (known : names.mapM app.library.get? = some goals) :
    (names.mapM (findGoal app)).run w = (.ok goals, w) := by
  have loop (found : List Goal) :
      (List.mapM.loop (findGoal app) names found).run w = (.ok (found.reverse ++ goals), w) := by
    induction names generalizing goals found with
    | nil =>
      cases known
      exact congrArg (fun all => (Except.ok all, w)) (List.append_nil _).symm
    | cons name rest ih =>
      rw [List.mapM_cons] at known
      obtain ⟨goal, isGoal, known⟩ := Option.bind_eq_some_iff.mp known
      obtain ⟨others, areOthers, known⟩ := Option.bind_eq_some_iff.mp known
      cases known
      have later := ih areOthers (goal :: found)
      rw [List.reverse_cons, List.append_assoc] at later
      exact (run_bind_of_ok (run_findGoal isGoal)).trans later
  exact loop []

theorem run_findGoals_of_unknown (unknown : names.mapM app.library.get? = none) :
    ∃ e, (names.mapM (findGoal app)).run w = (.error e, w) := by
  have loop (found : List Goal) :
      ∃ e, (List.mapM.loop (findGoal app) names found).run w = (.error e, w) := by
    induction names generalizing found with
    | nil => cases unknown
    | cons name rest ih =>
      cases isGoal : app.library.get? name with
      | none =>
        obtain ⟨e, fails⟩ := run_findGoal_of_unknown (w := w) isGoal
        exact ⟨e, run_bind_of_error fails⟩
      | some goal =>
        have others : rest.mapM app.library.get? = none := by
          rw [List.mapM_cons, isGoal] at unknown
          cases known : rest.mapM app.library.get? with
          | none => rfl
          | some goals =>
            rw [known] at unknown
            cases unknown
        obtain ⟨e, fails⟩ := ih others (goal :: found)
        exact ⟨e, (run_bind_of_ok (run_findGoal isGoal)).trans fails⟩
  exact loop []

/-- A session has a round for each of the setup goals in line, up to the first that fails. After all
of them it goes on with the goals asked for. -/
def BeginsWithSetup (app : App) (names : List String) (goals : List Goal) (w : World) : Prop :=
  ∃ rounds r, Rounds app app.library.setupGoals w rounds r ∧
    rounds.map Round.goal <+: app.library.setupGoals ∧
    (∀ v, r = (.ok (), v) → rounds.map Round.goal = app.library.setupGoals ∧
      (session app names).run w = (afterSetup app goals).run v) ∧
    ∀ e v, r = (.error e, v) → (session app names).run w = (.error e, v)

theorem beginsWithSetup (known : (asked app names).mapM app.library.get? = some goals) :
    BeginsWithSetup app names goals w := by
  obtain ⟨rounds, r, h⟩ := Rounds.exists_of app app.library.setupGoals w
  obtain ⟨last, done⟩ := h.run_eq none
  have begun : (session app names).run w =
      (runAll app none app.library.setupGoals >>= fun _ => afterSetup app goals).run w := by
    rw [session_eq]
    exact run_bind_of_ok (run_findGoals_of_known known)
  refine ⟨rounds, r, h, h.isPrefix, ?_, ?_⟩
  · rintro v rfl
    exact ⟨h.all_of_ok rfl, begun.trans (run_bind_of_ok done)⟩
  · rintro e v rfl
    exact begun.trans (run_bind_of_error done)

/-- A name leads to the last goal of that name. What is in line as a setup goal is what its name
leads to, and every setup goal that a name leads to is in line. All in line are setup goals if no
ordinary goal takes the place of one, and none is in line twice if no two setup goals share a name,
and only then. A session that knows the goals it is asked for has one round for each place in
line. -/
theorem setup_goals_wait_in_line (file : LibraryFile) (config : EngineConfig) :
    let lib := Library.ofFile file
    let app : App := { library := lib, config }
    (∀ name, lib.get? name = (lastNamed? file.goals name).map Goal.kept) ∧
    (∀ goal ∈ lib.setupGoals, lib.get? goal.name = some goal) ∧
    (∀ name goal, lib.get? name = some goal → goal.isSetup = true → goal ∈ lib.setupGoals) ∧
    ((∀ goal ∈ lib.setupGoals, goal.isSetup = true) ↔ file.KeepsSetup) ∧
    (lib.setupGoals.Nodup ↔ file.NamesSetupOnce) ∧
    ∀ names w,
      ((asked app names).mapM lib.get? = none →
        ∃ e, (session app names).run w = (.error e, w)) ∧
      ∀ goals, (asked app names).mapM lib.get? = some goals →
        BeginsWithSetup app names goals w := by
  intro lib app
  refine ⟨Library.get?_ofFile file, fun goal => Library.get?_of_mem_setupGoals,
    fun name goal => Library.mem_setupGoals_of_get?, Library.setupGoals_isSetup_iff file,
    Library.setupGoals_nodup_iff file, fun names w => ⟨fun unknown => ?_, fun goals known => ?_⟩⟩
  · have known : ∃ e, ((asked app names).mapM (findGoal app)).run w = (.error e, w) :=
      run_findGoals_of_unknown unknown
    obtain ⟨e, fails⟩ := known
    rw [session_eq]
    exact ⟨e, run_bind_of_error fails⟩
  · exact beginsWithSetup known

/-- The setup goal A is declared twice, and B first as a setup goal and then as an ordinary one. The
goal a is in line twice, and the ordinary B is in line. -/
theorem setup_goals_are_repeated :
    let line := (Library.ofFile { goals :=
      [{ name := "A", isSetup := true }, { name := "a", isSetup := true },
        { name := "B", isSetup := true }, { name := "B" }] }).setupGoals
    line.map Goal.name = ["a", "a", "B"] ∧ ¬ line.Nodup ∧ ∃ goal ∈ line, goal.isSetup = false := by
  refine ⟨by decide, fun once => ?_, by decide⟩
  exact absurd ((Library.setupGoals_nodup_iff _).mp once) (by decide)

end Run

end GoalScript
