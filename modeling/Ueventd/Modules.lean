/-
# Ueventd.Modules — loading kernel modules on MODALIAS

An `add` uevent that carries a MODALIAS goes to `handle_module_loading`. While the alias table is
empty it tries to read `modules.alias` and, when that read succeeds, `modules.blacklist`. It then
matches the modalias against every alias pattern (`load_module_by_device_modalias`): a matching
module that the blacklist does not hold back is passed to `insmod_by_dep`. The modalias is queued
for later when the alias table is still empty, or when the call's return value is `2`, the code
for a module deferred while booting. The queue is drained by `handle_deferred_module_loading`,
which `device_init` calls once, after coldboot.

The model keeps the three lists in `ModuleTables` and records, for every call, the modules handed
to `insmod_by_dep`. The files are the token streams `next_token` makes of them (`none` when a
file cannot be opened or read); the outcome of `insmod_by_dep`, `is_booting()` and the
allocation of a queue node are inputs of each call. A file written one entry per line reads back
as those entries (`read_modules_desc_files_round_trip`).

Over whole runs (`moduleRun`), the alias table never changes once read (`moduleRun_aliases`),
every insertion is attributed to a modalias the run received, through an alias line of that
table (`module_run_attributed`), and a queued modalias stays queued until a drain loads it
(`queued_modalias_kept_or_loaded`).
-/
import Ueventd.CString

namespace Ueventd

/-- `struct module_alias_node`: an alias line `alias <pattern> <name>`. A queued modalias is kept
in the `pattern` of such a node. -/
structure ModuleAlias where
  name : CStr
  pattern : CStr
  deriving DecidableEq, Repr

/-- `struct module_blacklist_node`: a line `blacklist <name>` or `deferred <name>`. -/
structure ModuleBlacklist where
  name : CStr
  deferred : Bool
  deriving DecidableEq, Repr

/-- `modules_aliases_map`, `modules_blacklist` and `deferred_module_loading_list`. -/
structure ModuleTables where
  aliases : List ModuleAlias
  blacklist : List ModuleBlacklist
  deferredQueue : List CStr
  deriving DecidableEq, Repr

/-! ## Reading the description files -/

/-- What `next_token` returns; the end of the list is `T_EOF`. -/
inductive Token
  | text (s : CStr)
  | newline
  deriving DecidableEq, Repr

/-- The `for (;;)` loop of `__read_modules_desc_file`: `args` holds the texts of the current
line, at most `argsToRead` of them; `parse_line` runs on them at each `T_NEWLINE` that follows
some text, and with no arguments at `T_EOF`. -/
def descLoop {α : Type} (argsToRead : Nat) (parseLine : List CStr → List α) :
    List CStr → List Token → List α
  | _, [] => parseLine []
  | args, .newline :: ts =>
    (if args = [] then [] else parseLine args) ++ descLoop argsToRead parseLine [] ts
  | args, .text s :: ts =>
    descLoop argsToRead parseLine (if args.length < argsToRead then args ++ [s] else args) ts

/-- `parse_line_module_alias`: a line of exactly three texts `alias <pattern> <name>`. -/
def parseLineModuleAlias : List CStr → List ModuleAlias
  | [_, pattern, name] => [⟨name, pattern⟩]
  | _ => []

/-- `parse_line_module_blacklist`: a line of exactly two texts whose first begins with
`blacklist` or `deferred`. -/
def parseLineModuleBlacklist : List CStr → List ModuleBlacklist
  | [kind, name] =>
    if "blacklist".toList <+: kind then [⟨name, false⟩]
    else if "deferred".toList <+: kind then [⟨name, true⟩]
    else []
  | _ => []

/-- `__read_modules_desc_file(mode)` for the mode's line parser and argument count: `-1` when the
file cannot be opened or read, else `0` and the entries its lines give. -/
def readModulesDescFile {α : Type} (argsToRead : Nat) (parseLine : List CStr → List α) :
    Option (List Token) → Int × List α
  | none => (-1, [])
  | some toks => (0, descLoop argsToRead parseLine [] toks)

/-- `read_modules_aliases()`. -/
def readModulesAliases : Option (List Token) → Int × List ModuleAlias :=
  readModulesDescFile 3 parseLineModuleAlias

/-- `read_modules_blacklist()`. -/
def readModulesBlacklist : Option (List Token) → Int × List ModuleBlacklist :=
  readModulesDescFile 2 parseLineModuleBlacklist

/-! ## What the readers keep -/

/-- The lines of a token stream from the partial line `cur`: each maximal run of texts that a
newline ends, and, when `eofEnds`, the run the end of the file ends; an empty run is no line. -/
def linesAux (eofEnds : Bool) (cur : List CStr) : List Token → List (List CStr)
  | [] => if eofEnds && cur ≠ [] then [cur] else []
  | .newline :: ts => (if cur = [] then [] else [cur]) ++ linesAux eofEnds [] ts
  | .text s :: ts => linesAux eofEnds (cur ++ [s]) ts

/-- The lines of a description file: runs of texts ended by a newline or by the end of the
file. -/
def fileLines (toks : List Token) : List (List CStr) := linesAux true [] toks

/-- The runs of texts that a newline ends. -/
def newlineLines (toks : List Token) : List (List CStr) := linesAux false [] toks

/-- The reading loop from a partial line `cur`: each line a newline ends, cut to its first
`argsToRead` texts, then `parse_line` with no arguments at `T_EOF`. -/
theorem descLoop_take {α : Type} {argsToRead : Nat} (hn : 0 < argsToRead)
    (parseLine : List CStr → List α) (cur : List CStr) (toks : List Token) :
    descLoop argsToRead parseLine (cur.take argsToRead) toks =
      (linesAux false cur toks).flatMap (fun l => parseLine (l.take argsToRead)) ++
        parseLine [] := by
  induction toks generalizing cur with
  | nil => simp [descLoop, linesAux]
  | cons tok toks ih =>
    cases tok with
    | newline =>
      have hcur : cur.take argsToRead = [] ↔ cur = [] := by
        simp [List.take_eq_nil_iff, Nat.pos_iff_ne_zero.mp hn]
      rw [descLoop, linesAux, ← List.take_nil (i := argsToRead), ih]
      by_cases h : cur = [] <;> simp [h, hcur]
    | text s =>
      rw [descLoop, linesAux, ← ih]
      congr 1
      rw [List.take_append_eq_append_take, List.length_take]
      split_ifs with h
      · rw [List.take_of_length_le (by omega : cur.length ≤ argsToRead),
          List.take_of_length_le (by simp; omega)]
      · rw [show argsToRead - cur.length = 0 by omega, List.take_zero, List.append_nil]

/-- `__read_modules_desc_file` on a readable file keeps the lines a newline ends, each cut to
its first `argsToRead` texts. -/
theorem readModulesDescFile_some {α : Type} {argsToRead : Nat} (hn : 0 < argsToRead)
    (parseLine : List CStr → List α) (toks : List Token) :
    readModulesDescFile argsToRead parseLine (some toks) =
      (0, (newlineLines toks).flatMap (fun l => parseLine (l.take argsToRead)) ++ parseLine []) := by
  rw [readModulesDescFile, newlineLines, ← descLoop_take hn parseLine [] toks, List.take_nil]

/-- The token stream of a description file made of the lines `lines`, each ended by a newline. -/
def descFile (lines : List (List CStr)) : List Token :=
  lines.flatMap fun l => l.map .text ++ [.newline]

theorem linesAux_texts (eofEnds : Bool) (cur l : List CStr) (ts : List Token) :
    linesAux eofEnds cur (l.map .text ++ ts) = linesAux eofEnds (cur ++ l) ts := by
  induction l generalizing cur with
  | nil => simp
  | cons s l ih => simp [linesAux, ih]

theorem newlineLines_descFile {lines : List (List CStr)} (h : ∀ l ∈ lines, l ≠ []) :
    newlineLines (descFile lines) = lines := by
  induction lines with
  | nil => rfl
  | cons l lines ih =>
    have hl := h l (List.mem_cons_self _ _)
    rw [newlineLines, descFile, List.flatMap_cons, List.append_assoc, linesAux_texts,
      List.nil_append, List.singleton_append, linesAux, if_neg hl]
    exact congrArg (l :: ·) (ih fun l' hl' => h l' (List.mem_cons_of_mem _ hl'))

/-- **The description files read back.** A `modules.alias` whose lines are
`alias <pattern> <name>` reads as those aliases, and a `modules.blacklist` whose lines are
`blacklist <name>` or `deferred <name>` as those entries, each in file order. -/
theorem read_modules_desc_files_round_trip (as : List ModuleAlias) (bl : List ModuleBlacklist) :
    readModulesAliases (some (descFile (as.map fun a => ["alias".toList, a.pattern, a.name]))) =
        (0, as) ∧
      readModulesBlacklist (some (descFile (bl.map fun e =>
        [if e.deferred then "deferred".toList else "blacklist".toList, e.name]))) = (0, bl) := by
  constructor
  · rw [readModulesAliases, readModulesDescFile_some (by decide), newlineLines_descFile
      fun _ hl => let ⟨_, _, h⟩ := List.mem_map.mp hl; h ▸ List.cons_ne_nil _ _]
    simp only [List.flatMap_map, Function.comp_def, List.take, parseLineModuleAlias,
      List.append_nil, List.flatMap_singleton']
  · rw [readModulesBlacklist, readModulesDescFile_some (by decide), newlineLines_descFile
      fun _ hl => let ⟨_, _, h⟩ := List.mem_map.mp hl; h ▸ List.cons_ne_nil _ _]
    have hline : ∀ e : ModuleBlacklist, parseLineModuleBlacklist
        ([if e.deferred then "deferred".toList else "blacklist".toList, e.name].take 2) = [e] := by
      rintro ⟨name, _ | _⟩
      · simp [parseLineModuleBlacklist]
      · simp [parseLineModuleBlacklist, show ¬ "blacklist".toList <+: "deferred".toList by decide]
    simp only [List.flatMap_map, Function.comp_def, hline]
    simp [parseLineModuleBlacklist]

/-! ## Loading -/

/-- `is_module_blacklisted_or_deferred(name, need_deferred)`: the first blacklist entry for
`name` decides, `1` for a `blacklist` line, `2` for a `deferred` line when deferred modules are
held back, `0` otherwise. -/
def isModuleBlacklistedOrDeferred (bl : List ModuleBlacklist) (name : CStr) (needDeferred : Bool) :
    Int :=
  match bl.find? (·.name == name) with
  | none => 0
  | some e => if e.deferred then (if needDeferred then 2 else 0) else 1

/-- The outcome of `insmod_by_dep(name, "", NULL, 0, NULL)` for each module name. -/
abbrev Insmod := CStr → Int

section Loading

variable (fnmatch : Fnmatch)

/-- One iteration of `load_module_by_device_modalias` over the alias `a`: the new `ret`, and the
modules passed to `insmod_by_dep` so far. -/
def loadStep (insmod : Insmod) (bl : List ModuleBlacklist) (id : CStr) (needDeferred : Bool)
    (acc : Int × List CStr) (a : ModuleAlias) : Int × List CStr :=
  if fnmatch false a.pattern id then
    let ret := isModuleBlacklistedOrDeferred bl a.name needDeferred
    if ret = 0 then (insmod a.name, acc.2 ++ [a.name]) else (ret, acc.2)
  else acc

/-- `load_module_by_device_modalias(id, need_deferred)`: its `ret`, and the modules it passes to
`insmod_by_dep`, in order. -/
def loadModuleByDeviceModalias (insmod : Insmod) (t : ModuleTables) (id : CStr)
    (needDeferred : Bool) : Int × List CStr :=
  t.aliases.foldl (loadStep fnmatch insmod t.blacklist id needDeferred) (-1, [])

/-- `handle_deferred_module_loading()`: with a non-empty alias table, every queued modalias is
loaded with `need_deferred` false and unlinked. -/
def handleDeferredModuleLoading (insmod : Insmod) (t : ModuleTables) : ModuleTables × List CStr :=
  if t.aliases = [] then (t, [])
  else ({ t with deferredQueue := [] },
    t.deferredQueue.flatMap fun m => (loadModuleByDeviceModalias fnmatch insmod t m false).2)

/-- What `handle_module_loading` sees of the system at one call. -/
structure ModuleEnv where
  /-- `modules.alias` as tokens, `none` when it cannot be opened or read. -/
  aliasFile : Option (List Token)
  /-- `modules.blacklist` as tokens, `none` when it cannot be opened or read. -/
  blacklistFile : Option (List Token)
  /-- `is_booting()`: whether `/dev/.booting` exists. -/
  booting : Bool
  insmod : Insmod
  /-- Whether `calloc` and `strdup` of a queue node succeed. -/
  allocOk : Bool

/-- The first lines of `handle_module_loading`: read `modules.alias` while the alias table is
empty, and `modules.blacklist` when that read succeeds. -/
def loadTables (env : ModuleEnv) (t : ModuleTables) : ModuleTables :=
  if t.aliases = [] then
    if (readModulesAliases env.aliasFile).1 = 0 then
      { t with aliases := t.aliases ++ (readModulesAliases env.aliasFile).2,
               blacklist := t.blacklist ++ (readModulesBlacklist env.blacklistFile).2 }
    else { t with aliases := t.aliases ++ (readModulesAliases env.aliasFile).2 }
  else t

/-- Queue a modalias: `calloc` and `strdup` of a node, then `list_add_tail`. -/
def enqueue (allocOk : Bool) (m : CStr) (t : ModuleTables) : ModuleTables :=
  if allocOk then { t with deferredQueue := t.deferredQueue ++ [m] } else t

/-- `handle_module_loading(modalias)`: the tables after it, and the modules it passes to
`insmod_by_dep`. -/
def handleModuleLoading (env : ModuleEnv) (t : ModuleTables) (modalias : Option CStr) :
    ModuleTables × List CStr :=
  let t := loadTables env t
  match modalias with
  | none => (t, [])
  | some m =>
    if t.aliases = [] then (enqueue env.allocOk m t, [])
    else
      let r := loadModuleByDeviceModalias fnmatch env.insmod t m env.booting
      (if r.1 = 2 then enqueue env.allocOk m t else t, r.2)

/-! ## Runs -/

/-- What reaches the module loader: a uevent (its `ACTION` and `MODALIAS`, with the system as it
is then), or the drain `device_init` runs after coldboot. -/
inductive ModuleStep
  | uevent (action : CStr) (modalias : Option CStr) (env : ModuleEnv)
  | drain (insmod : Insmod)

/-- One step: `handle_device_event` calls `handle_module_loading` on `add` events only. -/
def moduleStep (t : ModuleTables) : ModuleStep → ModuleTables × List CStr
  | .uevent action modalias env =>
    if action = "add".toList then handleModuleLoading fnmatch env t modalias else (t, [])
  | .drain insmod => handleDeferredModuleLoading fnmatch insmod t

/-- The tables after a run, and every module passed to `insmod_by_dep` along it. -/
def moduleRun (t : ModuleTables) : List ModuleStep → ModuleTables × List CStr
  | [] => (t, [])
  | s :: ss =>
    let r := moduleStep fnmatch t s
    let rest := moduleRun r.1 ss
    (rest.1, r.2 ++ rest.2)

/-! ## The blacklist only grows -/

theorem loadTables_blacklist (env : ModuleEnv) (t : ModuleTables) :
    ∃ extra, (loadTables env t).blacklist = t.blacklist ++ extra := by
  unfold loadTables
  split
  · split
    · exact ⟨_, rfl⟩
    · exact ⟨[], by simp⟩
  · exact ⟨[], by simp⟩

@[simp] theorem enqueue_blacklist (allocOk : Bool) (m : CStr) (t : ModuleTables) :
    (enqueue allocOk m t).blacklist = t.blacklist := by
  unfold enqueue; split <;> rfl

@[simp] theorem enqueue_aliases (allocOk : Bool) (m : CStr) (t : ModuleTables) :
    (enqueue allocOk m t).aliases = t.aliases := by
  unfold enqueue; split <;> rfl

@[simp] theorem handleModuleLoading_blacklist (env : ModuleEnv) (t : ModuleTables)
    (modalias : Option CStr) :
    (handleModuleLoading fnmatch env t modalias).1.blacklist = (loadTables env t).blacklist := by
  unfold handleModuleLoading
  cases modalias with
  | none => rfl
  | some m =>
    dsimp only
    split
    · simp
    · split <;> simp

@[simp] theorem handleDeferredModuleLoading_blacklist (insmod : Insmod) (t : ModuleTables) :
    (handleDeferredModuleLoading fnmatch insmod t).1.blacklist = t.blacklist := by
  unfold handleDeferredModuleLoading
  split <;> rfl

theorem moduleStep_blacklist (t : ModuleTables) (s : ModuleStep) :
    ∃ extra, (moduleStep fnmatch t s).1.blacklist = t.blacklist ++ extra := by
  cases s with
  | uevent action modalias env =>
    simp only [moduleStep]
    split
    · simpa using loadTables_blacklist env t
    · exact ⟨[], by simp⟩
  | drain insmod => exact ⟨[], by simp [moduleStep]⟩

/-- The modules one call of `handle_module_loading` inserts come from one call of
`load_module_by_device_modalias` on its own modalias, with the tables it has just read. -/
theorem mem_handleModuleLoading_insmods {env : ModuleEnv} {t : ModuleTables}
    {modalias : Option CStr} {n : CStr} (h : n ∈ (handleModuleLoading fnmatch env t modalias).2) :
    ∃ m, modalias = some m ∧
      n ∈ (loadModuleByDeviceModalias fnmatch env.insmod (loadTables env t) m env.booting).2 := by
  unfold handleModuleLoading at h
  cases modalias with
  | none => simp at h
  | some m =>
    dsimp only at h
    split at h
    · simp at h
    · exact ⟨m, rfl, h⟩

/-! ## What reaches `insmod_by_dep` -/

theorem isModuleBlacklistedOrDeferred_eq_zero {bl : List ModuleBlacklist} {name : CStr}
    {needDeferred : Bool} :
    isModuleBlacklistedOrDeferred bl name needDeferred = 0 ↔
      ∀ e, bl.find? (·.name == name) = some e → e.deferred = true ∧ needDeferred = false := by
  unfold isModuleBlacklistedOrDeferred
  cases bl.find? (·.name == name) with
  | none => simp
  | some e =>
    obtain ⟨n, d⟩ := e
    cases d <;> cases needDeferred <;> simp

/-- What `load_module_by_device_modalias` returns when `a` is the last alias that matches. -/
def matchOutcome (insmod : Insmod) (bl : List ModuleBlacklist) (needDeferred : Bool)
    (a : ModuleAlias) : Int :=
  if isModuleBlacklistedOrDeferred bl a.name needDeferred = 0 then insmod a.name
  else isModuleBlacklistedOrDeferred bl a.name needDeferred

/-- The loop of `load_module_by_device_modalias` from any `ret` and any modules inserted so far. -/
theorem foldl_loadStep (insmod : Insmod) (bl : List ModuleBlacklist) (id : CStr)
    (needDeferred : Bool) (as : List ModuleAlias) (acc : Int × List CStr) :
    as.foldl (loadStep fnmatch insmod bl id needDeferred) acc =
      (((as.filter fun a => fnmatch false a.pattern id).getLast?.map
          (matchOutcome insmod bl needDeferred)).getD acc.1,
        acc.2 ++ ((as.filter fun a => fnmatch false a.pattern id).filter fun a =>
          isModuleBlacklistedOrDeferred bl a.name needDeferred = 0).map (·.name)) := by
  induction as generalizing acc with
  | nil => simp
  | cons a as ih =>
    rw [List.foldl_cons, ih]
    by_cases hm : fnmatch false a.pattern id
    · simp only [List.filter_cons, hm, if_true, List.getLast?_cons]
      cases h : (as.filter fun a => fnmatch false a.pattern id).getLast? <;>
        by_cases h0 : isModuleBlacklistedOrDeferred bl a.name needDeferred = 0 <;>
        simp [loadStep, hm, h, h0, matchOutcome]
    · simp [loadStep, hm]

/-- **The last matching alias decides.** `load_module_by_device_modalias` passes to
`insmod_by_dep` the modules of the aliases that match the modalias and that the blacklist lets
through, in table order, and returns what the last matching alias gave: the result of
`insmod_by_dep` for a module let through, the blacklist's verdict otherwise; `-1` when no alias
matches. -/
theorem load_module_by_device_modalias_last_match (insmod : Insmod) (t : ModuleTables)
    (id : CStr) (needDeferred : Bool) :
    loadModuleByDeviceModalias fnmatch insmod t id needDeferred =
      (((t.aliases.filter fun a => fnmatch false a.pattern id).getLast?.map
          (matchOutcome insmod t.blacklist needDeferred)).getD (-1),
        ((t.aliases.filter fun a => fnmatch false a.pattern id).filter fun a =>
          isModuleBlacklistedOrDeferred t.blacklist a.name needDeferred = 0).map (·.name)) := by
  simp [loadModuleByDeviceModalias, foldl_loadStep]

/-- Every module `load_module_by_device_modalias` passes to `insmod_by_dep` was classified `0`. -/
theorem loadModule_insmod_classified (insmod : Insmod) (t : ModuleTables) (id : CStr)
    (needDeferred : Bool) :
    ∀ name ∈ (loadModuleByDeviceModalias fnmatch insmod t id needDeferred).2,
      isModuleBlacklistedOrDeferred t.blacklist name needDeferred = 0 := by
  intro name hname
  simp only [loadModuleByDeviceModalias, foldl_loadStep, List.nil_append, List.mem_map,
    List.mem_filter] at hname
  obtain ⟨a, ⟨-, h0⟩, rfl⟩ := hname
  simpa using h0

/-- A module whose first blacklist entry is a `blacklist` line is never inserted by one step. -/
theorem moduleStep_not_inserted {t : ModuleTables} {name : CStr} {e : ModuleBlacklist}
    (he : t.blacklist.find? (·.name == name) = some e) (hbl : e.deferred = false)
    (s : ModuleStep) : name ∉ (moduleStep fnmatch t s).2 := by
  have hfirst : ∀ extra, (t.blacklist ++ extra).find? (·.name == name) = some e := fun extra => by
    rw [List.find?_append, he]; rfl
  have hclass : ∀ t' : ModuleTables, (∃ extra, t'.blacklist = t.blacklist ++ extra) →
      ∀ insmod id nd, name ∉ (loadModuleByDeviceModalias fnmatch insmod t' id nd).2 := by
    rintro t' ⟨extra, hext⟩ insmod id nd hmem
    have := isModuleBlacklistedOrDeferred_eq_zero.mp
      (loadModule_insmod_classified fnmatch insmod t' id nd name hmem) e (hext ▸ hfirst extra)
    simp [hbl] at this
  cases s with
  | uevent action modalias env =>
    simp only [moduleStep]
    split
    · intro hmem
      obtain ⟨m, -, hm⟩ := mem_handleModuleLoading_insmods fnmatch hmem
      exact hclass _ (loadTables_blacklist env t) _ _ _ hm
    · simp
  | drain insmod =>
    simp only [moduleStep, handleDeferredModuleLoading]
    split
    · simp
    · simp only [List.mem_flatMap, not_exists, not_and]
      exact fun m _ => hclass t ⟨[], by simp⟩ _ _ _

theorem moduleRun_not_inserted {t : ModuleTables} {name : CStr} {e : ModuleBlacklist}
    (he : t.blacklist.find? (·.name == name) = some e) (hbl : e.deferred = false)
    (steps : List ModuleStep) : name ∉ (moduleRun fnmatch t steps).2 := by
  induction steps generalizing t with
  | nil => simp [moduleRun]
  | cons s ss ih =>
    obtain ⟨extra, hext⟩ := moduleStep_blacklist fnmatch t s
    simp only [moduleRun, List.mem_append, not_or]
    exact ⟨moduleStep_not_inserted fnmatch he hbl s,
      ih (by rw [hext, List.find?_append, he]; rfl)⟩

/-! ## Where an insertion comes from -/

/-- A modalias the run received: queued before it, or the `MODALIAS` of one of its `add`
events. -/
def Received (t : ModuleTables) (steps : List ModuleStep) (m : CStr) : Prop :=
  m ∈ t.deferredQueue ∨ ∃ env, ModuleStep.uevent "add".toList (some m) env ∈ steps

theorem loadTables_of_ne {env : ModuleEnv} {t : ModuleTables} (h : t.aliases ≠ []) :
    loadTables env t = t := by
  simp [loadTables, h]

@[simp] theorem handleModuleLoading_aliases (env : ModuleEnv) (t : ModuleTables)
    (modalias : Option CStr) :
    (handleModuleLoading fnmatch env t modalias).1.aliases = (loadTables env t).aliases := by
  unfold handleModuleLoading
  cases modalias with
  | none => rfl
  | some m =>
    dsimp only
    split
    · simp
    · split <;> simp

/-- Once read, the alias table never changes. -/
theorem moduleStep_aliases {t : ModuleTables} (h : t.aliases ≠ []) (s : ModuleStep) :
    (moduleStep fnmatch t s).1.aliases = t.aliases := by
  cases s with
  | uevent action modalias env =>
    simp only [moduleStep]
    split
    · simp [loadTables_of_ne h]
    · rfl
  | drain insmod =>
    simp only [moduleStep, handleDeferredModuleLoading]
    split <;> rfl

theorem moduleRun_aliases {t : ModuleTables} (h : t.aliases ≠ []) (steps : List ModuleStep) :
    (moduleRun fnmatch t steps).1.aliases = t.aliases := by
  induction steps generalizing t with
  | nil => rfl
  | cons s ss ih =>
    have hs := moduleStep_aliases fnmatch h s
    simp only [moduleRun]
    rw [ih (hs ▸ h), hs]

theorem mem_loadModuleByDeviceModalias {insmod : Insmod} {t : ModuleTables} {id : CStr}
    {needDeferred : Bool} {n : CStr}
    (h : n ∈ (loadModuleByDeviceModalias fnmatch insmod t id needDeferred).2) :
    ∃ a ∈ t.aliases, a.name = n ∧ fnmatch false a.pattern id = true := by
  simp only [loadModuleByDeviceModalias, foldl_loadStep, List.nil_append, List.mem_map,
    List.mem_filter] at h
  obtain ⟨a, ⟨⟨ha, hm⟩, -⟩, rfl⟩ := h
  exact ⟨a, ha, rfl, hm⟩

@[simp] theorem loadTables_deferredQueue (env : ModuleEnv) (t : ModuleTables) :
    (loadTables env t).deferredQueue = t.deferredQueue := by
  unfold loadTables
  split
  · split <;> rfl
  · rfl

theorem mem_enqueue {allocOk : Bool} {m m' : CStr} {t : ModuleTables}
    (h : m' ∈ (enqueue allocOk m t).deferredQueue) : m' ∈ t.deferredQueue ∨ m' = m := by
  unfold enqueue at h
  split at h
  · simpa using h
  · exact .inl h

theorem mem_handleModuleLoading_queue {env : ModuleEnv} {t : ModuleTables}
    {modalias : Option CStr} {m : CStr}
    (h : m ∈ (handleModuleLoading fnmatch env t modalias).1.deferredQueue) :
    m ∈ t.deferredQueue ∨ modalias = some m := by
  unfold handleModuleLoading at h
  cases modalias with
  | none => exact .inl (by simpa using h)
  | some m' =>
    dsimp only at h
    split at h
    · simpa [eq_comm] using mem_enqueue h
    · split at h
      · simpa [eq_comm] using mem_enqueue h
      · exact .inl (by simpa using h)

/-- One step queues only the modalias of its own `add` event. -/
theorem moduleStep_queue (t : ModuleTables) (s : ModuleStep) {m : CStr}
    (h : m ∈ (moduleStep fnmatch t s).1.deferredQueue) : Received t [s] m := by
  cases s with
  | uevent action modalias env =>
    simp only [moduleStep] at h
    split at h
    · rename_i hadd
      refine (mem_handleModuleLoading_queue fnmatch h).imp_right fun hm => ⟨env, ?_⟩
      rw [← hadd, ← hm]
      exact List.mem_singleton_self _
    · exact .inl h
  | drain insmod =>
    simp only [moduleStep, handleDeferredModuleLoading] at h
    split at h
    · exact .inl h
    · cases h

/-- One step inserts only modules that an alias of the table it leaves names for a modalias it
received. -/
theorem moduleStep_attributed (t : ModuleTables) (s : ModuleStep) {n : CStr}
    (h : n ∈ (moduleStep fnmatch t s).2) :
    ∃ a ∈ (moduleStep fnmatch t s).1.aliases, a.name = n ∧
      ∃ m, fnmatch false a.pattern m = true ∧ Received t [s] m := by
  cases s with
  | uevent action modalias env =>
    simp only [moduleStep] at h ⊢
    split at h
    · rename_i hadd
      obtain ⟨m, rfl, hn⟩ := mem_handleModuleLoading_insmods fnmatch h
      obtain ⟨a, ha, rfl, hm⟩ := mem_loadModuleByDeviceModalias fnmatch hn
      rw [if_pos hadd, handleModuleLoading_aliases]
      exact ⟨a, ha, rfl, m, hm, .inr ⟨env, by rw [hadd]; exact List.mem_singleton_self _⟩⟩
    · simp at h
  | drain insmod =>
    simp only [moduleStep, handleDeferredModuleLoading] at h ⊢
    split at h
    · simp at h
    · rename_i hne
      rw [if_neg hne]
      obtain ⟨m, hq, hn⟩ := List.mem_flatMap.mp h
      obtain ⟨a, ha, rfl, hm⟩ := mem_loadModuleByDeviceModalias fnmatch hn
      exact ⟨a, ha, rfl, m, hm, .inl hq⟩

theorem Received.mono {t : ModuleTables} {steps steps' : List ModuleStep} {m : CStr}
    (h : Received t steps m) (hs : steps ⊆ steps') : Received t steps' m :=
  h.imp_right fun ⟨env, h⟩ => ⟨env, hs h⟩

/-- What a later step received, the step before it received or passed on. -/
theorem Received.cons {t t' : ModuleTables} {s : ModuleStep} {ss : List ModuleStep} {m : CStr}
    (hq : ∀ m ∈ t'.deferredQueue, Received t [s] m) (h : Received t' ss m) :
    Received t (s :: ss) m := by
  rcases h with h | ⟨env, h⟩
  · exact (hq m h).mono (by simp)
  · exact .inr ⟨env, List.mem_cons_of_mem _ h⟩

theorem moduleRun_queue (t : ModuleTables) (steps : List ModuleStep) :
    ∀ m ∈ (moduleRun fnmatch t steps).1.deferredQueue, Received t steps m := by
  induction steps generalizing t with
  | nil => exact fun m h => .inl h
  | cons s ss ih =>
    exact fun m h => (ih _ m h).cons (fun m hm => moduleStep_queue fnmatch t s hm)

/-- **Every insertion is attributed to a received modalias.** Over every run of the module
loader, from any tables and with any contents of the description files and any outcomes of
`insmod_by_dep`, `is_booting()` and the queue allocations: each module passed to
`insmod_by_dep` is the name of an alias line of the final alias table whose pattern matches a
modalias the run received (one queued before it, or the `MODALIAS` of one of its `add` events),
and every modalias left queued was received so. -/
theorem module_run_attributed (t : ModuleTables) (steps : List ModuleStep) :
    (∀ n ∈ (moduleRun fnmatch t steps).2, ∃ a ∈ (moduleRun fnmatch t steps).1.aliases,
      a.name = n ∧ ∃ m, fnmatch false a.pattern m = true ∧ Received t steps m) ∧
    ∀ m ∈ (moduleRun fnmatch t steps).1.deferredQueue, Received t steps m := by
  refine ⟨?_, moduleRun_queue fnmatch t steps⟩
  induction steps generalizing t with
  | nil => simp [moduleRun]
  | cons s ss ih =>
    intro n hn
    simp only [moduleRun, List.mem_append] at hn ⊢
    rcases hn with hn | hn
    · obtain ⟨a, ha, rfl, m, hm, hr⟩ := moduleStep_attributed fnmatch t s hn
      rw [moduleRun_aliases fnmatch (List.ne_nil_of_mem ha)]
      exact ⟨a, ha, rfl, m, hm, hr.mono (by simp)⟩
    · obtain ⟨a, ha, rfl, m, hm, hr⟩ := ih _ n hn
      exact ⟨a, ha, rfl, m, hm, hr.cons fun m hm => moduleStep_queue fnmatch t s hm⟩

/-! ## No queued modalias is lost -/

theorem mem_enqueue_of_mem {allocOk : Bool} {m m' : CStr} {t : ModuleTables}
    (h : m ∈ t.deferredQueue) : m ∈ (enqueue allocOk m' t).deferredQueue := by
  unfold enqueue
  split
  · exact List.mem_append_left _ h
  · exact h

/-- An event never takes a modalias off the queue. -/
theorem mem_moduleStep_queue_uevent {t : ModuleTables} {m : CStr} (h : m ∈ t.deferredQueue)
    (action : CStr) (modalias : Option CStr) (env : ModuleEnv) :
    m ∈ (moduleStep fnmatch t (.uevent action modalias env)).1.deferredQueue := by
  simp only [moduleStep]
  split
  · unfold handleModuleLoading
    have h' : m ∈ (loadTables env t).deferredQueue := by rwa [loadTables_deferredQueue]
    cases modalias with
    | none => exact h'
    | some m' =>
      dsimp only
      split
      · exact mem_enqueue_of_mem h'
      · split
        · exact mem_enqueue_of_mem h'
        · exact h'
  · exact h

/-- One step keeps a queued modalias queued, unless it is a drain that finds the alias table
loaded. -/
theorem mem_moduleStep_queue {t : ModuleTables} {m : CStr} (h : m ∈ t.deferredQueue)
    (s : ModuleStep) :
    (∃ insmod, s = .drain insmod ∧ t.aliases ≠ []) ∨
      m ∈ (moduleStep fnmatch t s).1.deferredQueue := by
  cases s with
  | uevent action modalias env => exact .inr (mem_moduleStep_queue_uevent fnmatch h _ _ _)
  | drain insmod =>
    by_cases hne : t.aliases = []
    · exact .inr (by simpa [moduleStep, handleDeferredModuleLoading, hne] using h)
    · exact .inl ⟨insmod, rfl, hne⟩

/-- **No queued modalias is lost.** Along every run of the module loader, a modalias in the
queue is still queued at the end, or a drain of the run found the alias table loaded and
called `load_module_by_device_modalias` on it without holding deferred modules back: every
module that call passes to `insmod_by_dep` is among the run's insertions, in order. -/
theorem queued_modalias_kept_or_loaded (t : ModuleTables) (steps : List ModuleStep) {m : CStr}
    (hm : m ∈ t.deferredQueue) :
    m ∈ (moduleRun fnmatch t steps).1.deferredQueue ∨
      ∃ pre insmod post, steps = pre ++ .drain insmod :: post ∧
        (moduleRun fnmatch t pre).1.aliases ≠ [] ∧
        List.Sublist
          (loadModuleByDeviceModalias fnmatch insmod (moduleRun fnmatch t pre).1 m false).2
          (moduleRun fnmatch t steps).2 := by
  induction steps generalizing t with
  | nil => exact .inl hm
  | cons s ss ih =>
    rcases mem_moduleStep_queue fnmatch hm s with ⟨insmod, rfl, hne⟩ | hs
    · -- this drain loads it
      refine .inr ⟨[], insmod, ss, rfl, hne, ?_⟩
      simp only [moduleRun, moduleStep, handleDeferredModuleLoading, if_neg hne]
      refine List.Sublist.trans ?_ (List.sublist_append_left _ _)
      exact List.sublist_flatten_of_mem (List.mem_map_of_mem _ hm)
    · -- the rest of the run keeps or loads it
      exact (ih _ hs).imp id fun ⟨pre, insmod, post, hss, hne, hsub⟩ =>
        ⟨s :: pre, insmod, post, by rw [hss]; rfl, hne, hsub.trans (List.sublist_append_right _ _)⟩

/-- The queued `pci:v1` waits through an `add` that reads `modules.alias`, and the drain after it
loads it. -/
theorem queued_modalias_kept_or_loaded_pci :
    let t : ModuleTables := ⟨[], [], ["pci:v1".toList]⟩
    let steps : List ModuleStep :=
      [.uevent "add".toList (some "usb:v2".toList)
        ⟨some [.text "alias".toList, .text "pci:v1".toList, .text "modQ".toList, .newline], none,
          false, fun _ => 0, true⟩,
        .drain fun _ => 0]
    "pci:v1".toList ∈ t.deferredQueue ∧
      ("pci:v1".toList ∈ (moduleRun literalFnmatch t steps).1.deferredQueue ∨
        ∃ pre insmod post, steps = pre ++ .drain insmod :: post ∧
          (moduleRun literalFnmatch t pre).1.aliases ≠ [] ∧
          List.Sublist (loadModuleByDeviceModalias literalFnmatch insmod
            (moduleRun literalFnmatch t pre).1 "pci:v1".toList false).2
            (moduleRun literalFnmatch t steps).2) :=
  ⟨List.mem_singleton_self _, queued_modalias_kept_or_loaded literalFnmatch _ _
    (List.mem_singleton_self _)⟩

/-! ## The drain, node by node -/

/-- `deferred_module_loading_list` as the addresses of its nodes, in order; a node is linked at
most once. -/
structure NodeList where
  addrs : List Nat
  nodup : addrs.Nodup

/-- `node->next`: the address after `a`, `none` at the end of the list. -/
def NodeList.next (l : NodeList) (a : Nat) : Option Nat :=
  ((l.addrs.dropWhile (· ≠ a)).drop 1).head?

/-- `list_remove(node)`. -/
def NodeList.remove (l : NodeList) (a : Nat) : NodeList :=
  ⟨l.addrs.erase a, l.nodup.erase a⟩

/-- The `list_for_each_safe` loop of `handle_deferred_module_loading` from `node`, each node
holding the modalias `pattern node`: `next` is read from the node, the modalias goes to
`load_module_by_device_modalias(pattern, false)`, and the node is unlinked. The calls made, the
modules inserted, and the list left. -/
def drainDeferred (insmod : Insmod) (t : ModuleTables) (pattern : Nat → CStr) :
    Nat → Option Nat → NodeList → List (CStr × Bool) × List CStr × NodeList
  | 0, _, l => ([], [], l)
  | _ + 1, none, l => ([], [], l)
  | fuel + 1, some node, l =>
    let r := loadModuleByDeviceModalias fnmatch insmod t (pattern node) false
    let rest := drainDeferred insmod t pattern fuel (l.next node) (l.remove node)
    ((pattern node, false) :: rest.1, r.2 ++ rest.2.1, rest.2.2)

/-- `handle_deferred_module_loading()` on the list itself: the loop runs only when the alias
table is not empty. -/
def handleDeferredModuleLoadingNodes (insmod : Insmod) (t : ModuleTables) (pattern : Nat → CStr)
    (l : NodeList) : List (CStr × Bool) × List CStr × NodeList :=
  if t.aliases = [] then ([], [], l)
  else drainDeferred fnmatch insmod t pattern l.addrs.length l.addrs.head? l

theorem NodeList.next_head {l : NodeList} {a : Nat} {as : List Nat} (h : l.addrs = a :: as) :
    l.next a = as.head? := by
  simp [NodeList.next, h]

theorem NodeList.remove_head {l : NodeList} {a : Nat} {as : List Nat} (h : l.addrs = a :: as) :
    (l.remove a).addrs = as := by
  simp [NodeList.remove, h]

/-- From the head, with a unit of fuel per node, the loop calls the loader once per node in
list order and unlinks them all: the node read as `next` is never the one removed. -/
theorem drainDeferred_head (insmod : Insmod) (t : ModuleTables) (pattern : Nat → CStr)
    (as : List Nat) (l : NodeList) (hl : l.addrs = as) (fuel : Nat) (hfuel : as.length ≤ fuel) :
    drainDeferred fnmatch insmod t pattern fuel as.head? l =
      (as.map (fun a => (pattern a, false)),
        as.flatMap (fun a => (loadModuleByDeviceModalias fnmatch insmod t (pattern a) false).2),
        ⟨[], List.nodup_nil⟩) := by
  induction as generalizing l fuel with
  | nil =>
    obtain ⟨addrs, _⟩ := l
    subst hl
    cases fuel <;> rfl
  | cons a as ih =>
    obtain ⟨fuel, rfl⟩ : ∃ f, fuel = f + 1 := ⟨fuel - 1, by simp at hfuel; omega⟩
    simp only [drainDeferred, List.head?_cons, NodeList.next_head hl,
      ih (l.remove a) (NodeList.remove_head hl) fuel (by simpa using hfuel), List.map_cons,
      List.flatMap_cons]

theorem handleDeferredModuleLoadingNodes_of_ne (insmod : Insmod) (t : ModuleTables)
    (pattern : Nat → CStr) (l : NodeList) (h : t.aliases ≠ []) :
    handleDeferredModuleLoadingNodes fnmatch insmod t pattern l =
      (l.addrs.map (fun a => (pattern a, false)),
        l.addrs.flatMap (fun a => (loadModuleByDeviceModalias fnmatch insmod t (pattern a) false).2),
        ⟨[], List.nodup_nil⟩) := by
  rw [handleDeferredModuleLoadingNodes, if_neg h]
  exact drainDeferred_head fnmatch insmod t pattern l.addrs l rfl _ le_rfl

end Loading

/-- **Each queued modalias exactly once.** With a non-empty alias table,
`handle_deferred_module_loading` calls `load_module_by_device_modalias(q, false)` once for each
queued modalias `q`, in queue order, and unlinks every node: the `next` it reads before
`list_remove` is never the node removed, so none is skipped or visited twice. With an empty alias
table it loads nothing and leaves the queue as it is. The loader does not read the queue, and the
drain step of the module loader's runs is this loop. -/
theorem handle_deferred_module_loading_each_once (fnmatch : Fnmatch) (insmod : Insmod)
    (t : ModuleTables) (pattern : Nat → CStr) (l : NodeList) :
    (t.aliases ≠ [] →
      handleDeferredModuleLoadingNodes fnmatch insmod t pattern l =
        (l.addrs.map (fun a => (pattern a, false)),
          l.addrs.flatMap
            (fun a => (loadModuleByDeviceModalias fnmatch insmod t (pattern a) false).2),
          ⟨[], List.nodup_nil⟩)) ∧
    (t.aliases = [] → handleDeferredModuleLoadingNodes fnmatch insmod t pattern l = ([], [], l)) ∧
    (∀ q id needDeferred, loadModuleByDeviceModalias fnmatch insmod { t with deferredQueue := q }
      id needDeferred = loadModuleByDeviceModalias fnmatch insmod t id needDeferred) ∧
    (t.deferredQueue = l.addrs.map pattern →
      handleDeferredModuleLoading fnmatch insmod t =
        ({ t with deferredQueue :=
            (handleDeferredModuleLoadingNodes fnmatch insmod t pattern l).2.2.addrs.map pattern },
          (handleDeferredModuleLoadingNodes fnmatch insmod t pattern l).2.1)) := by
  refine ⟨handleDeferredModuleLoadingNodes_of_ne fnmatch insmod t pattern l,
    fun h => by simp [handleDeferredModuleLoadingNodes, h], fun _ _ _ => rfl, fun hq => ?_⟩
  obtain ⟨aliases, bl, q⟩ := t
  dsimp only at hq ⊢
  subst hq
  by_cases h : aliases = []
  · subst h; rfl
  · rw [handleDeferredModuleLoadingNodes_of_ne fnmatch insmod _ pattern l h, handleDeferredModuleLoading,
      if_neg h, List.flatMap_map]
    rfl

/-- **The first blacklist entry decides.** `load_module_by_device_modalias` passes to
`insmod_by_dep` only modules whose first entry in the blacklist table is a `deferred` line, and
only when deferred modules are not held back, or modules with no entry at all. So along every
run of uevents and drains, a module whose first entry is a `blacklist` line is never inserted
from then on. -/
theorem load_module_first_blacklist_entry_decides :
    (∀ (fnmatch : Fnmatch) (insmod : Insmod) (t : ModuleTables) (id : CStr) (needDeferred : Bool),
      ∀ name ∈ (loadModuleByDeviceModalias fnmatch insmod t id needDeferred).2,
        ∀ e, t.blacklist.find? (·.name == name) = some e →
          e.deferred = true ∧ needDeferred = false) ∧
    (∀ (fnmatch : Fnmatch) (t : ModuleTables) (steps : List ModuleStep) (name : CStr)
      (e : ModuleBlacklist), t.blacklist.find? (·.name == name) = some e → e.deferred = false →
        name ∉ (moduleRun fnmatch t steps).2) :=
  ⟨fun fnmatch insmod t id nd name hname =>
      isModuleBlacklistedOrDeferred_eq_zero.mp (loadModule_insmod_classified fnmatch insmod t id nd name hname),
    fun fnmatch _ steps _ _ he hbl => moduleRun_not_inserted fnmatch he hbl steps⟩

theorem blacklisted_module_never_inserted_on_drain :
    [(⟨"wl12xx".toList, false⟩ : ModuleBlacklist)].find? (·.name == "wl12xx".toList) =
        some ⟨"wl12xx".toList, false⟩ ∧
      "wl12xx".toList ∉ (moduleRun literalFnmatch
        ⟨[⟨"wl12xx".toList, "sdio:c00v0097".toList⟩], [⟨"wl12xx".toList, false⟩],
          ["sdio:c00v0097".toList]⟩ [.drain fun _ => 0]).2 :=
  ⟨by decide, load_module_first_blacklist_entry_decides.2 literalFnmatch
    ⟨[⟨"wl12xx".toList, "sdio:c00v0097".toList⟩], [⟨"wl12xx".toList, false⟩],
      ["sdio:c00v0097".toList]⟩ [.drain fun _ => 0] "wl12xx".toList ⟨"wl12xx".toList, false⟩
    (by decide) rfl⟩

/-- A module listed first by a `deferred` line and then by a `blacklist` line is inserted by a
call that does not hold deferred modules back. -/
theorem load_module_inserts_deferred_then_blacklisted :
    loadModuleByDeviceModalias literalFnmatch (fun _ => 0)
      ⟨[⟨"x".toList, "m".toList⟩], [⟨"x".toList, true⟩, ⟨"x".toList, false⟩], []⟩
      "m".toList false = (0, ["x".toList]) := by
  decide

/-- Two aliases match; the first names a module deferred while booting, the second a module
that loads. `load_module_by_device_modalias` returns the second one's result, so the modalias is
not queued and the deferred module is skipped for good. -/
theorem handle_module_loading_loses_deferred_match :
    isModuleBlacklistedOrDeferred [⟨"modA".toList, true⟩] "modA".toList true = 2 ∧
    handleModuleLoading literalFnmatch ⟨none, none, true, fun _ => 0, true⟩
        ⟨[⟨"modA".toList, "acpi:PNP0A03".toList⟩, ⟨"modB".toList, "acpi:PNP0A03".toList⟩],
          [⟨"modA".toList, true⟩], []⟩ (some "acpi:PNP0A03".toList) =
      (⟨[⟨"modA".toList, "acpi:PNP0A03".toList⟩, ⟨"modB".toList, "acpi:PNP0A03".toList⟩],
          [⟨"modA".toList, true⟩], []⟩, ["modB".toList]) := by
  decide

/-- `modules.alias` becomes readable while `pci:v1` waits in the queue: the call loads the
tables but leaves the queue as it was, and nothing tries `pci:v1` (a drain would insert
`modQ`). -/
theorem handle_module_loading_keeps_queue :
    handleModuleLoading literalFnmatch
        ⟨some [.text "alias".toList, .text "pci:v1".toList, .text "modQ".toList, .newline], none,
          false, fun _ => 0, true⟩
        ⟨[], [], ["pci:v1".toList]⟩ (some "usb:v2".toList) =
      (⟨[⟨"modQ".toList, "pci:v1".toList⟩], [], ["pci:v1".toList]⟩, []) ∧
    handleDeferredModuleLoading literalFnmatch (fun _ => 0)
        ⟨[⟨"modQ".toList, "pci:v1".toList⟩], [], ["pci:v1".toList]⟩ =
      (⟨[⟨"modQ".toList, "pci:v1".toList⟩], [], []⟩, ["modQ".toList]) := by
  decide

/-- `modules.alias` is readable but holds no alias line: every `add` event reads
`modules.blacklist` again and appends another copy of its one entry. -/
theorem blacklist_reloaded_each_add :
    (readModulesBlacklist (some [.text "blacklist".toList, .text "foo".toList, .newline])).2 =
        [⟨"foo".toList, false⟩] ∧
    (moduleRun literalFnmatch ⟨[], [], []⟩
        [.uevent "add".toList (some "m1".toList)
            ⟨some [.newline], some [.text "blacklist".toList, .text "foo".toList, .newline],
              false, fun _ => 0, true⟩,
          .uevent "add".toList (some "m2".toList)
            ⟨some [.newline], some [.text "blacklist".toList, .text "foo".toList, .newline],
              false, fun _ => 0, true⟩]).1.blacklist =
      [⟨"foo".toList, false⟩, ⟨"foo".toList, false⟩] := by
  decide

/-- **The last line and the surplus texts.** For every token stream `__read_modules_desc_file`
keeps exactly the lines a newline ends, each cut to its first three (aliases) or two (blacklist)
texts. So a last line with no newline before `T_EOF` is lost, as `parse_line` then runs with no
arguments, and a line longer than `args_to_read` texts is cut down to one that is accepted. -/
theorem read_modules_desc_file_drops_unterminated_line :
    (∀ toks, (readModulesAliases (some toks)).2 =
      (newlineLines toks).flatMap fun l => parseLineModuleAlias (l.take 3)) ∧
    (∀ toks, (readModulesBlacklist (some toks)).2 =
      (newlineLines toks).flatMap fun l => parseLineModuleBlacklist (l.take 2)) ∧
    (fileLines [.text "alias".toList, .text "pci:v1*".toList, .text "modA".toList]).flatMap
        parseLineModuleAlias = [⟨"modA".toList, "pci:v1*".toList⟩] ∧
    (readModulesAliases
        (some [.text "alias".toList, .text "pci:v1*".toList, .text "modA".toList])).2 = [] ∧
    (fileLines [.text "blacklist".toList, .text "modB".toList, .text "now".toList,
        .newline]).flatMap parseLineModuleBlacklist = [] ∧
    (readModulesBlacklist (some [.text "blacklist".toList, .text "modB".toList,
        .text "now".toList, .newline])).2 = [⟨"modB".toList, false⟩] := by
  refine ⟨fun toks => ?_, fun toks => ?_, by decide, by decide, by decide, by decide⟩
  · simp [readModulesAliases, readModulesDescFile_some, parseLineModuleAlias]
  · simp [readModulesBlacklist, readModulesDescFile_some, parseLineModuleBlacklist]

end Ueventd
