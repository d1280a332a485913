import NdnFwd.Core.Options

/-!
# The command line of the forwarder

The first word may ask for onboarding, which looks its options up wherever they first occur. All
other command lines go to the hand-written loop of `parse_args`.
-/

namespace NdnFwd.CommandLine

open Options

/-- `CliArgs`. -/
@[ext]
structure CliArgs where
  configPath : Option String
  logLevel : Option String
  listModules : Bool
  deriving DecidableEq, Repr

/-- What the forwarder sets out to do. -/
inductive Outcome
  /-- `init` with the namespace, which is yet to be parsed. -/
  | init (namespaceUri : String)
  /-- `only --profile hub is supported`. -/
  | badProfile (profile : String)
  /-- `init requires --namespace <ndn-name>, e.g. /home/bob`. -/
  | noNamespace
  /-- `adopt` with the ticket, which is yet to be parsed. -/
  | adopt (ticket : String)
  /-- `adopt requires a <ticket> (a bootstrap URL or fragment)`. -/
  | noTicket
  | help
  | version
  /-- `die_usage`. -/
  | usage (msg : String)
  | run (cli : CliArgs)
  deriving DecidableEq, Repr

section Onboard

/-- `flag`. -/
def flag (args : List String) (name : String) : Option String :=
  (args.findIdx? (· == name)).bind fun i => args[i + 1]?

/-- `run_init`, up to what it does with the namespace. -/
def runInit (args : List String) : Outcome :=
  if (flag args "--profile").getD "hub" ≠ "hub" then
    .badProfile ((flag args "--profile").getD "hub")
  else
    match flag args "--namespace" with
    | none => .noNamespace
    | some namespaceUri => .init namespaceUri

/-- An argument that begins with two dashes. -/
def isLong (arg : String) : Bool := "--".toList.isPrefixOf arg.toList

/-- `run_adopt`, up to what it does with the ticket. -/
def runAdopt (args : List String) : Outcome :=
  match args.find? fun a => !isLong a with
  | none => .noTicket
  | some ticket => .adopt ticket

end Onboard

section Parse

/-- The option of the configuration file. -/
def isConfig (w : String) : Bool := w = "-c" || w = "--config"

/-- The option of the log level. -/
def isLogLevel (w : String) : Bool := w = "--log-level"

/-- The arms of `parse_args`. -/
def read (w : String) : Reading CliArgs Outcome :=
  if w = "-h" ∨ w = "--help" then .stop .help
  else if w = "-V" ∨ w = "--version" then .stop .version
  else if isConfig w then
    .value (fun v s => { s with configPath := some v })
      (.usage "`--config` needs a value: a TOML config file path")
  else if isLogLevel w then
    .value (fun v s => { s with logLevel := some v })
      (.usage "`--log-level` needs a value: trace, debug, info, warn, or error")
  else if w = "--modules" then .switch fun s => { s with listModules := true }
  else .stop (.usage ("unrecognized argument `" ++ w ++ "`"))

/-- `parse_args`. -/
def parseArgs (args : List String) : Except Outcome CliArgs :=
  scan read args.tail ⟨none, none, false⟩

/-- `main`, up to what it is about to do. -/
def start (args : List String) : Outcome :=
  if args.tail.head? = some "init" then runInit (args.drop 2)
  else if args.tail.head? = some "adopt" then runAdopt (args.drop 2)
  else
    match parseArgs args with
    | .ok cli => .run cli
    | .error o => o

end Parse

section Grammar

/-- The first occurrence of an option is followed by this word. -/
def After (args : List String) (name v : String) : Prop :=
  ∃ pre post, args = pre ++ name :: v :: post ∧ name ∉ pre

private theorem after_cons_self {args : List String} {name v : String} :
    After (name :: args) name v ↔ args[0]? = some v := by
  constructor
  · rintro ⟨pre, post, h, hpre⟩
    cases pre with
    | nil =>
      obtain ⟨-, rfl⟩ := List.cons.inj h
      rfl
    | cons a pre =>
      obtain ⟨rfl, -⟩ := List.cons.inj h
      exact absurd List.mem_cons_self hpre
  · intro h
    cases args with
    | nil => cases h
    | cons a args =>
      obtain rfl := Option.some.inj h
      exact ⟨[], args, rfl, List.not_mem_nil⟩

private theorem after_cons_of_ne {args : List String} {a name v : String} (ha : a ≠ name) :
    After (a :: args) name v ↔ After args name v := by
  constructor
  · rintro ⟨pre, post, h, hpre⟩
    cases pre with
    | nil => exact absurd (List.cons.inj h).1 ha
    | cons b pre =>
      obtain ⟨-, rfl⟩ := List.cons.inj h
      exact ⟨pre, post, rfl, List.not_mem_of_not_mem_cons hpre⟩
  · rintro ⟨pre, post, rfl, hpre⟩
    exact ⟨a :: pre, post, rfl, List.not_mem_cons_of_ne_of_not_mem (Ne.symm ha) hpre⟩

private theorem flag_eq_some_iff {args : List String} {name v : String} :
    flag args name = some v ↔ After args name v := by
  induction args with
  | nil =>
    constructor
    · intro h
      cases h
    · rintro ⟨pre, post, h, -⟩
      exact absurd h.symm (List.append_ne_nil_of_right_ne_nil pre (List.cons_ne_nil _ _))
  | cons a args ih =>
    rw [flag, List.findIdx?_cons]
    by_cases ha : a = name
    · subst ha
      rw [if_pos (beq_self_eq_true a), Option.bind_some, after_cons_self, List.getElem?_cons_succ]
    · rw [if_neg (by simpa using ha), after_cons_of_ne ha, ← ih, flag, Option.bind_map]
      rfl

private theorem flag_eq_none_iff {args : List String} {name : String} :
    flag args name = none ↔ ∀ v, ¬After args name v := by
  rw [Option.eq_none_iff_forall_ne_some]
  exact forall_congr' fun v => not_congr flag_eq_some_iff

/-- An option of the daemon. -/
def IsOption (item : Item) : Prop :=
  (isConfig item.word = true ∨ isLogLevel item.word = true) ∧ item.value ≠ none ∨
    item = ⟨"--modules", none⟩

/-- What the options of the daemon amount to: the last counts. -/
def settings (items : List Item) : CliArgs where
  configPath := lastValue isConfig items
  logLevel := lastValue isLogLevel items
  listModules := items.contains ⟨"--modules", none⟩

/-- The words after the options of the daemon that keep it from starting. -/
inductive Ends : List String → Outcome → Prop
  | help {w : String} (rest : List String) (h : w = "-h" ∨ w = "--help") : Ends (w :: rest) .help
  | version {w : String} (rest : List String) (h : w = "-V" ∨ w = "--version") :
    Ends (w :: rest) .version
  | noConfig {w : String} (h : isConfig w = true) :
    Ends [w] (.usage "`--config` needs a value: a TOML config file path")
  | noLogLevel {w : String} (h : isLogLevel w = true) :
    Ends [w] (.usage "`--log-level` needs a value: trace, debug, info, warn, or error")
  | unrecognized {w : String} (rest : List String) (hconfig : isConfig w = false)
    (hlog : isLogLevel w = false)
    (h : w ∉ ["-h", "--help", "-V", "--version", "--modules"]) :
    Ends (w :: rest) (.usage ("unrecognized argument `" ++ w ++ "`"))

/-- What the words after the name of the program mean. -/
inductive Means : List String → Outcome → Prop
  | init {args : List String} {namespaceUri : String}
    (hprofile : ∀ v, After args "--profile" v → v = "hub")
    (h : After args "--namespace" namespaceUri) : Means ("init" :: args) (.init namespaceUri)
  | badProfile {args : List String} {profile : String} (h : After args "--profile" profile)
    (hne : profile ≠ "hub") : Means ("init" :: args) (.badProfile profile)
  | noNamespace {args : List String} (hprofile : ∀ v, After args "--profile" v → v = "hub")
    (h : ∀ v, ¬After args "--namespace" v) : Means ("init" :: args) .noNamespace
  | adopt {pre : List String} {ticket : String} (post : List String)
    (hpre : ∀ a ∈ pre, isLong a = true) (h : isLong ticket = false) :
    Means ("adopt" :: (pre ++ ticket :: post)) (.adopt ticket)
  | noTicket {args : List String} (h : ∀ a ∈ args, isLong a = true) :
    Means ("adopt" :: args) .noTicket
  | run {items : List Item} (h : ∀ item ∈ items, IsOption item) :
    Means (words items) (.run (settings items))
  | ends {items : List Item} {rest : List String} {o : Outcome}
    (h : ∀ item ∈ items, IsOption item) (hrest : Ends rest o)
    (hfirst : (words items ++ rest).head? ≠ some "init" ∧
      (words items ++ rest).head? ≠ some "adopt") : Means (words items ++ rest) o

section Readings

variable {w : String} {item : Item} {rest : List String} {o : Outcome}

private theorem read_help (h : w = "-h" ∨ w = "--help") : read w = .stop .help := if_pos h

private theorem read_version (h : w = "-V" ∨ w = "--version") : read w = .stop .version := by
  rcases h with rfl | rfl <;> rfl

private theorem read_config (h : isConfig w = true) :
    read w = .value (fun v s => { s with configPath := some v })
      (.usage "`--config` needs a value: a TOML config file path") := by
  rcases (Bool.or_eq_true _ _).mp h with h | h <;>
  · obtain rfl := of_decide_eq_true h
    rfl

private theorem read_logLevel (h : isLogLevel w = true) :
    read w = .value (fun v s => { s with logLevel := some v })
      (.usage "`--log-level` needs a value: trace, debug, info, warn, or error") := by
  obtain rfl := of_decide_eq_true h
  rfl

private theorem read_modules : read "--modules" = .switch fun s => { s with listModules := true } :=
  rfl

private theorem read_unrecognized (hconfig : isConfig w = false) (hlog : isLogLevel w = false)
    (h : w ∉ ["-h", "--help", "-V", "--version", "--modules"]) :
    read w = .stop (.usage ("unrecognized argument `" ++ w ++ "`")) := by
  simp only [List.mem_cons, List.not_mem_nil, or_false, not_or] at h
  simp [read, h, hconfig, hlog]

/-- The arms between them take every word. -/
theorem read_cases (w : String) : (w = "-h" ∨ w = "--help") ∨ (w = "-V" ∨ w = "--version") ∨
    isConfig w = true ∨ isLogLevel w = true ∨ w = "--modules" ∨
    isConfig w = false ∧ isLogLevel w = false ∧
      w ∉ ["-h", "--help", "-V", "--version", "--modules"] := by
  simp only [List.mem_cons, List.not_mem_nil, or_false, not_or]
  cases isConfig w <;> cases isLogLevel w <;> tauto

private theorem fits_iff : Fits read item ↔ IsOption item := by
  obtain ⟨w, v⟩ := item
  unfold Fits IsOption
  simp only [read]
  split_ifs with hhelp hversion hconfig hlog hmodules
  · rcases hhelp with rfl | rfl <;> simp [isConfig, isLogLevel]
  · rcases hversion with rfl | rfl <;> simp [isConfig, isLogLevel]
  · have hne : w ≠ "--modules" := by
      rintro rfl
      revert hconfig
      decide
    simp [hconfig, hne]
  · have hne : w ≠ "--modules" := by
      rintro rfl
      revert hlog
      decide
    simp [hlog, hne]
  · subst hmodules
    simp [isConfig, isLogLevel]
  · simp [hconfig, hlog, hmodules]

private theorem stops_iff : Stops read rest o ↔ Ends rest o := by
  constructor
  · rintro (@⟨w, ws, e, hread⟩ | @⟨w, store, e, hread⟩)
    · rcases read_cases w with h | h | h | h | rfl | ⟨hconfig, hlog, h⟩
      · rw [read_help h] at hread
        obtain rfl := Reading.stop.inj hread
        exact .help ws h
      · rw [read_version h] at hread
        obtain rfl := Reading.stop.inj hread
        exact .version ws h
      · rw [read_config h] at hread
        cases hread
      · rw [read_logLevel h] at hread
        cases hread
      · cases hread
      · rw [read_unrecognized hconfig hlog h] at hread
        obtain rfl := Reading.stop.inj hread
        exact .unrecognized ws hconfig hlog h
    · rcases read_cases w with h | h | h | h | rfl | ⟨hconfig, hlog, h⟩
      · rw [read_help h] at hread
        cases hread
      · rw [read_version h] at hread
        cases hread
      · rw [read_config h] at hread
        obtain rfl := (Reading.value.inj hread).2
        exact .noConfig h
      · rw [read_logLevel h] at hread
        obtain rfl := (Reading.value.inj hread).2
        exact .noLogLevel h
      · cases hread
      · rw [read_unrecognized hconfig hlog h] at hread
        cases hread
  · rintro (⟨-, h⟩ | ⟨-, h⟩ | ⟨h⟩ | ⟨h⟩ | ⟨-, hconfig, hlog, h⟩)
    · exact .word (read_help h)
    · exact .word (read_version h)
    · exact .missing (read_config h)
    · exact .missing (read_logLevel h)
    · exact .word (read_unrecognized hconfig hlog h)

end Readings

section Settings

variable {w v : String} {items : List Item} {item : Item}

private theorem isConfig_of_isLogLevel (h : isLogLevel w = true) : isConfig w = false := by
  obtain rfl := of_decide_eq_true h
  rfl

private theorem effect_config (h : isConfig w = true) (v : String) (s : CliArgs) :
    effect read s ⟨w, some v⟩ = { s with configPath := some v } := by
  unfold effect
  rw [read_config h]

private theorem effect_logLevel (h : isLogLevel w = true) (v : String) (s : CliArgs) :
    effect read s ⟨w, some v⟩ = { s with logLevel := some v } := by
  unfold effect
  rw [read_logLevel h]

private theorem effect_modules (s : CliArgs) :
    effect read s ⟨"--modules", none⟩ = { s with listModules := true } := by
  unfold effect
  rw [read_modules]

/-- An option of the daemon is one of its three. -/
theorem option_cases (h : Fits read item) :
    (∃ w v, item = ⟨w, some v⟩ ∧ isConfig w = true) ∨
      (∃ w v, item = ⟨w, some v⟩ ∧ isLogLevel w = true) ∨ item = ⟨"--modules", none⟩ := by
  obtain ⟨w, v⟩ := item
  rcases fits_iff.mp h with ⟨hword, hv⟩ | hmodules
  · obtain ⟨v, rfl⟩ := Option.ne_none_iff_exists'.mp hv
    rcases hword with hword | hword
    · exact Or.inl ⟨w, v, rfl, hword⟩
    · exact Or.inr (Or.inl ⟨w, v, rfl, hword⟩)
  · exact Or.inr (Or.inr hmodules)

private theorem effect_configPath (item : Item) (s : CliArgs) (h : Fits read item) :
    (effect read s item).configPath = if isConfig item.word then item.value else s.configPath := by
  rcases option_cases h with ⟨w, v, rfl, hw⟩ | ⟨w, v, rfl, hw⟩ | rfl
  · rw [effect_config hw, if_pos hw]
  · rw [effect_logLevel hw, if_neg (Bool.eq_false_iff.mp (isConfig_of_isLogLevel hw))]
  · rfl

private theorem effect_logLevel_eq (item : Item) (s : CliArgs) (h : Fits read item) :
    (effect read s item).logLevel = if isLogLevel item.word then item.value else s.logLevel := by
  rcases option_cases h with ⟨w, v, rfl, hw⟩ | ⟨w, v, rfl, hw⟩ | rfl
  · have hne : ¬isLogLevel w = true := fun hlog => by
      rw [isConfig_of_isLogLevel hlog] at hw
      cases hw
    rw [effect_config hw, if_neg hne]
  · rw [effect_logLevel hw, if_pos hw]
  · rfl

private theorem effect_listModules (item : Item) (s : CliArgs) (h : Fits read item) :
    (effect read s item).listModules = (s.listModules || item == ⟨"--modules", none⟩) := by
  rcases option_cases h with ⟨w, v, rfl, hw⟩ | ⟨w, v, rfl, hw⟩ | rfl
  · have hne : ((⟨w, some v⟩ : Item) == ⟨"--modules", none⟩) = false := by simp
    rw [effect_config hw, hne, Bool.or_false]
  · have hne : ((⟨w, some v⟩ : Item) == ⟨"--modules", none⟩) = false := by simp
    rw [effect_logLevel hw, hne, Bool.or_false]
  · rw [effect_modules, beq_self_eq_true, Bool.or_true]

private theorem foldl_listModules (h : ∀ item ∈ items, Fits read item) (s : CliArgs) :
    (items.foldl (effect read) s).listModules =
      (s.listModules || items.contains ⟨"--modules", none⟩) := by
  induction items generalizing s with
  | nil => exact (Bool.or_false _).symm
  | cons item items ih =>
    have hitem := List.forall_mem_cons.mp h
    rw [List.foldl_cons, ih hitem.2, effect_listModules item s hitem.1, List.contains_cons,
      Bool.or_assoc, BEq.comm]

private theorem value_ne_none (h : Fits read item) (hname : isConfig item.word = true ∨
    isLogLevel item.word = true) : item.value ≠ none := by
  rcases option_cases h with ⟨w, v, rfl, -⟩ | ⟨w, v, rfl, -⟩ | rfl
  · exact Option.some_ne_none v
  · exact Option.some_ne_none v
  · rcases hname with hname | hname <;> cases hname

private theorem foldl_effect (h : ∀ item ∈ items, Fits read item) :
    items.foldl (effect read) ⟨none, none, false⟩ = settings items := by
  have hconfig := foldl_setting CliArgs.configPath effect_configPath h
    (fun item hitem hname => value_ne_none (h item hitem) (Or.inl hname)) ⟨none, none, false⟩
  have hlog := foldl_setting CliArgs.logLevel effect_logLevel_eq h
    (fun item hitem hname => value_ne_none (h item hitem) (Or.inr hname)) ⟨none, none, false⟩
  have hmodules := foldl_listModules h ⟨none, none, false⟩
  rw [Option.or_none] at hconfig hlog
  rw [Bool.false_or] at hmodules
  ext1
  · exact hconfig
  · exact hlog
  · exact hmodules

end Settings

section Start

variable {args ws : List String} {o : Outcome}

/-- The name of the program does not matter. -/
theorem start_eq (args : List String) : start args =
    if args.tail.head? = some "init" then runInit args.tail.tail
    else if args.tail.head? = some "adopt" then runAdopt args.tail.tail
    else
      match scan read args.tail ⟨none, none, false⟩ with
      | .ok cli => .run cli
      | .error o => o := by
  have hdrop : args.drop 2 = args.tail.tail := by
    rw [← List.drop_one, ← List.drop_one, List.drop_drop]
  rw [start, hdrop]
  rfl

private theorem means_runInit (args : List String) : Means ("init" :: args) (runInit args) := by
  unfold runInit
  split_ifs with hprofile
  · cases hflag : flag args "--profile" with
    | none =>
      rw [hflag] at hprofile
      exact absurd rfl hprofile
    | some profile =>
      rw [hflag] at hprofile
      exact .badProfile (flag_eq_some_iff.mp hflag) hprofile
  · have hhub : ∀ v, After args "--profile" v → v = "hub" := by
      intro v hv
      rw [flag_eq_some_iff.mpr hv] at hprofile
      exact not_not.mp hprofile
    cases hflag : flag args "--namespace" with
    | none => exact .noNamespace hhub (flag_eq_none_iff.mp hflag)
    | some namespaceUri => exact .init hhub (flag_eq_some_iff.mp hflag)

private theorem means_runAdopt (args : List String) : Means ("adopt" :: args) (runAdopt args) := by
  unfold runAdopt
  cases hfind : args.find? fun a => !isLong a with
  | none =>
    refine .noTicket fun a ha => ?_
    simpa using List.find?_eq_none.mp hfind a ha
  | some ticket =>
    obtain ⟨hticket, pre, post, rfl, hpre⟩ := List.find?_eq_some_iff_append.mp hfind
    refine .adopt post (fun a ha => ?_) (by simpa using hticket)
    simpa using hpre a ha

private theorem means_start (args : List String) : Means args.tail (start args) := by
  rw [start_eq]
  split_ifs with hinit hadopt
  · obtain ⟨ws, htail⟩ := List.head?_eq_some_iff.mp hinit
    rw [htail]
    exact means_runInit ws
  · obtain ⟨ws, htail⟩ := List.head?_eq_some_iff.mp hadopt
    rw [htail]
    exact means_runAdopt ws
  · generalize args.tail = ws at hinit hadopt
    cases hscan : scan read ws ⟨none, none, false⟩ with
    | ok cli =>
      obtain ⟨items, hfits, rfl, rfl⟩ := scan_eq_ok_iff.mp hscan
      rw [foldl_effect hfits]
      exact .run fun item hitem => fits_iff.mp (hfits item hitem)
    | error o =>
      obtain ⟨items, rest, hfits, rfl, hstops⟩ := scan_eq_error_iff.mp hscan
      exact .ends (fun item hitem => fits_iff.mp (hfits item hitem)) (stops_iff.mp hstops)
        ⟨hinit, hadopt⟩

private theorem head?_words {items : List Item} (h : ∀ item ∈ items, IsOption item) :
    (words items).head? ≠ some "init" ∧ (words items).head? ≠ some "adopt" := by
  cases items with
  | nil => exact ⟨nofun, nofun⟩
  | cons item items =>
    have hitem := fits_iff.mpr (List.forall_mem_cons.mp h).1
    have hhead : (words (item :: items)).head? = some item.word := rfl
    rw [hhead]
    rcases option_cases hitem with ⟨w, v, rfl, hw⟩ | ⟨w, v, rfl, hw⟩ | rfl
    · refine ⟨fun h => ?_, fun h => ?_⟩ <;>
      · obtain rfl := Option.some.inj h
        cases hw
    · refine ⟨fun h => ?_, fun h => ?_⟩ <;>
      · obtain rfl := Option.some.inj h
        cases hw
    · exact ⟨by decide, by decide⟩

private theorem runInit_of_hub (hprofile : ∀ v, After args "--profile" v → v = "hub") :
    runInit args = match flag args "--namespace" with
      | none => .noNamespace
      | some namespaceUri => .init namespaceUri := by
  have hhub : (flag args "--profile").getD "hub" = "hub" := by
    cases hflag : flag args "--profile" with
    | none => rfl
    | some profile => exact hprofile profile (flag_eq_some_iff.mp hflag)
  rw [runInit, if_neg (not_not.mpr hhub)]

private theorem start_of_means (h : Means args.tail o) : start args = o := by
  rw [start_eq]
  generalize args.tail = ws at h
  cases h with
  | init hprofile h =>
    rw [List.head?_cons, if_pos rfl, List.tail_cons, runInit_of_hub hprofile,
      flag_eq_some_iff.mpr h]
  | badProfile h hne =>
    rw [List.head?_cons, if_pos rfl, List.tail_cons, runInit, flag_eq_some_iff.mpr h]
    exact if_pos hne
  | noNamespace hprofile h =>
    rw [List.head?_cons, if_pos rfl, List.tail_cons, runInit_of_hub hprofile,
      flag_eq_none_iff.mpr h]
  | @adopt pre ticket post hpre h =>
    have hfind : (pre ++ ticket :: post).find? (fun a => !isLong a) = some ticket :=
      List.find?_eq_some_iff_append.mpr ⟨by rw [h]; rfl, pre, post, rfl, fun a ha => by
        rw [hpre a ha]; rfl⟩
    rw [List.head?_cons, if_neg (by simp), if_pos rfl, List.tail_cons, runAdopt, hfind]
  | @noTicket words h =>
    have hfind : words.find? (fun a => !isLong a) = none :=
      List.find?_eq_none.mpr fun a ha => by simp [h a ha]
    rw [List.head?_cons, if_neg (by simp), if_pos rfl, List.tail_cons, runAdopt, hfind]
  | @run items h =>
    have hfits : ∀ item ∈ items, Fits read item := fun item hitem => fits_iff.mpr (h item hitem)
    have hscan := scan_eq_ok_iff.mpr ⟨items, hfits, rfl, foldl_effect hfits⟩
    obtain ⟨hinit, hadopt⟩ := head?_words h
    rw [if_neg hinit, if_neg hadopt, hscan]
  | @ends items rest _ h hrest hfirst =>
    have hscan : scan read (words items ++ rest) ⟨none, none, false⟩ = .error o :=
      scan_eq_error_iff.mpr ⟨items, rest, fun item hitem => fits_iff.mpr (h item hitem), rfl,
        stops_iff.mpr hrest⟩
    rw [if_neg hfirst.1, if_neg hfirst.2, hscan]

/-- What the forwarder sets out to do is what its command line means. -/
theorem start_eq_iff (args : List String) (o : Outcome) : start args = o ↔ Means args.tail o := by
  constructor
  · rintro rfl
    exact means_start args
  · exact start_of_means

end Start

end Grammar

end NdnFwd.CommandLine
