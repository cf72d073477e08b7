/-
# Ueventd.Nodes — device nodes and sysfs attributes

`handle_device` creates a node with `make_device` on `add`, and links it; on `remove` it removes
the links and the node. `make_device` asks SELinux for the node's label and, if there is one,
creates the node with the label as the fscreate context and the rule's gid as the effective gid,
so that the node is born with both, then gives it its owner and puts the credentials back.
`fixup_sys_perms` applies the sysfs rules to the attributes of a device's directory.

What these functions do to the file system is a trace of `FsOp`s, each holding the paths it is
handed; what they do to the process is a change of `Creds`. The outcomes of the external calls
(the SELinux lookup, `mknod` failing with `EEXIST`, the allocations of the symlink builders, the
existence of the sysfs directory) are the fields of a `NodeEnv`.

The node takes the permissions `get_device_perm` gives its path and links (`Ueventd.Perms`).
The loop of `fixup_sys_perms` ends at the first matching rule whose attribute path would not fit
its 512-byte buffer, so the rules after it are never applied (`fixup_sys_perms_stops_at_long_path`).
-/
import Ueventd.Symlinks
import Ueventd.Perms

namespace Ueventd

/-! ## File-system calls and credentials -/

/-- A call into the file system, with the paths it is handed. `mknod` records the effective gid
and the fscreate context in force, which the new node takes. -/
inductive FsOp
  | mknod (path : CStr) (mode : Nat) (major minor : Int) (egid : Nat) (context : Option CStr)
  | lsetfilecon (path context : CStr)
  | chown (path : CStr) (uid : Nat) (gid : Int)
  | chmod (path : CStr) (mode : Nat)
  | unlink (path : CStr)
  /-- `make_dir(path, 0755)`. -/
  | makeDir (path : CStr)
  /-- `mkdir(path, 0755)`. -/
  | mkdir (path : CStr)
  /-- `mkdir_recursive(path, 0755)`. -/
  | mkdirRecursive (path : CStr)
  | makeLinkInit (target link : CStr)
  | removeLink (target link : CStr)
  /-- `restorecon_recursive(path)`. -/
  | restorecon (path : CStr)
  deriving DecidableEq, Repr

/-- The paths a call is handed. -/
def FsOp.paths : FsOp → List CStr
  | .mknod p .. | .lsetfilecon p _ | .chown p .. | .chmod p _ | .unlink p | .makeDir p
  | .mkdir p | .mkdirRecursive p | .restorecon p => [p]
  | .makeLinkInit target link | .removeLink target link => [target, link]

/-- The process credentials `make_device` changes: the effective gid, and the SELinux context
given to the files the process creates. -/
structure Creds where
  egid : Nat
  fscreate : Option CStr
  deriving DecidableEq, Repr

/-- `AID_ROOT`. -/
def aidRoot : Nat := 0

/-- The credentials ueventd keeps between two nodes: root's group and no fscreate context. -/
def Creds.AtRest (c : Creds) : Prop := c.egid = aidRoot ∧ c.fscreate = none

/-- The outcomes of the external calls one event makes: the label `selabel_lookup_best_match`
finds (`none` when it fails), whether `mknod` fails with `EEXIST`, the allocations of the symlink
builders, and whether `access("/sys<upath>", F_OK)` succeeds. -/
structure NodeEnv where
  label : Option CStr
  mknodEexist : Bool
  alloc : LinkAlloc
  sysExists : Bool
  deriving DecidableEq, Repr

/-- `S_IFBLK`. -/
def sIfBlk : Nat := 0o060000

/-- `S_IFCHR`. -/
def sIfChr : Nat := 0o020000

/-! ## `make_device` and `handle_device` -/

section Node

variable (fnmatch : Fnmatch) (st : PermStore)

/-- `make_device(path, upath, block, major, minor, links)`: the credentials after it and its
calls. Without a label it returns before it changes anything. -/
def makeDevice (env : NodeEnv) (path : CStr) (block : Bool) (major minor : Int)
    (links : Option (List CStr)) (c : Creds) : Creds × List FsOp :=
  match getDevicePerm fnmatch st path links with
  | (perm, uid, gid) =>
    let mode := perm ||| if block then sIfBlk else sIfChr
    match env.label with
    | none => (c, [])
    | some context =>
      let c := { c with fscreate := some context }
      let c := { c with egid := gid }
      let ops := FsOp.mknod path mode major minor c.egid c.fscreate ::
        (if env.mknodEexist then [.lsetfilecon path context] else []) ++ [.chown path uid (-1)]
      let c := { c with egid := aidRoot }
      ({ c with fscreate := none }, ops)

/-- The links `handle_device` reads from the array it is given: `some none` for a `NULL` array,
`none` when a loop would run past the array. -/
def linksOf : Option (List (Option CStr)) → Option (Option (List CStr))
  | none => some none
  | some slots => (readLinks slots).map some

/-- `handle_device(action, devpath, path, block, major, minor, links)`: the credentials after it
and its calls; `none` when a loop over `links` would run past the array. -/
def handleDevice (env : NodeEnv) (action devpath : CStr) (block : Bool) (major minor : Int)
    (links : Option (List (Option CStr))) (c : Creds) : Option (Creds × List FsOp) :=
  (linksOf links).map fun ls =>
    let added : Creds × List FsOp :=
      if action = "add".toList then
        let r := makeDevice fnmatch st env devpath block major minor ls c
        (r.1, r.2 ++ (ls.getD []).map (FsOp.makeLinkInit devpath))
      else (c, [])
    (added.1, added.2 ++ if action = "remove".toList then
      (ls.getD []).map (FsOp.removeLink devpath) ++ [.unlink devpath] else [])

/-- `make_device` leaves the credentials as it found them, or at rest once it has changed them. -/
theorem makeDevice_creds (env : NodeEnv) (path : CStr) (block : Bool) (major minor : Int)
    (links : Option (List CStr)) (c : Creds) :
    (makeDevice fnmatch st env path block major minor links c).1 =
      if env.label = none then c else ⟨aidRoot, none⟩ := by
  unfold makeDevice
  cases env.label <;> rfl

/-- `handle_device` runs on every array the builders return, and changes the credentials only
through `make_device`. -/
theorem handleDevice_eq {env : NodeEnv} {action devpath : CStr} {block : Bool} {major minor : Int}
    {links : Option (List (Option CStr))} {ls : Option (List CStr)}
    (hls : linksOf links = some ls) (c : Creds) :
    ∃ ops, handleDevice fnmatch st env action devpath block major minor links c = some
      (if action = "add".toList then (makeDevice fnmatch st env devpath block major minor ls c).1
        else c, ops) := by
  simp only [handleDevice, hls, Option.map_some', Option.some.injEq]
  split_ifs <;> exact ⟨_, rfl⟩

theorem handleDevice_atRest {env : NodeEnv} {action devpath : CStr} {block : Bool}
    {major minor : Int} {links : Option (List (Option CStr))} {ls : Option (List CStr)}
    (hls : linksOf links = some ls) {c : Creds} (hc : c.AtRest) :
    ∃ r, handleDevice fnmatch st env action devpath block major minor links c = some r ∧
      r.1.AtRest := by
  obtain ⟨ops, h⟩ := handleDevice_eq fnmatch st hls c
  refine ⟨_, h, ?_⟩
  split_ifs
  · rw [makeDevice_creds]
    split_ifs
    · exact hc
    · exact ⟨rfl, rfl⟩
  · exact hc

/-- With a label, `make_device` calls `mknod` on its path. -/
theorem makeDevice_mknod {env : NodeEnv} {context : CStr} (hlabel : env.label = some context)
    (path : CStr) (block : Bool) (major minor : Int) (links : Option (List CStr)) (c : Creds) :
    ∃ mode egid, FsOp.mknod path mode major minor egid (some context) ∈
      (makeDevice fnmatch st env path block major minor links c).2 := by
  unfold makeDevice
  rw [hlabel]
  exact ⟨_, _, List.mem_cons_self _ _⟩

/-- On `add`, `handle_device` makes the node and then links every link of the array to it. -/
theorem handleDevice_add {env : NodeEnv} {action devpath : CStr} {block : Bool} {major minor : Int}
    {links : Option (List (Option CStr))} {ls : Option (List CStr)}
    (hls : linksOf links = some ls) (hadd : action = "add".toList) (c : Creds) :
    handleDevice fnmatch st env action devpath block major minor links c =
      some ((makeDevice fnmatch st env devpath block major minor ls c).1,
        (makeDevice fnmatch st env devpath block major minor ls c).2 ++
          (ls.getD []).map (FsOp.makeLinkInit devpath)) := by
  subst hadd
  simp [handleDevice, hls]

end Node

/-! ## `fixup_sys_perms` -/

section Sys

variable (fnmatch : Fnmatch)

/-- The test of one `sys_perms` rule in `fixup_sys_perms(upath)`: `perm_path_matches` on the
rule's name without its first four characters, the `/sys` the devpath lacks. -/
def sysRuleMatches (upath : CStr) (dp : Perms) : Bool :=
  permPathMatches fnmatch upath { dp with name := dp.name.drop 4 }

/-- The path of a rule's attribute: `/sys<upath>/<attr>`. -/
def sysAttrPath (upath : CStr) (dp : Perms) : CStr :=
  "/sys".toList ++ upath ++ '/' :: dp.attr.getD []

/-- The loop of `fixup_sys_perms(upath)` over `sys_perms`: for each matching rule, `chown` and
`chmod` of its attribute, formatted into `buf[512]`; a matching rule whose path would not fit
ends the loop. -/
def sysPermsLoop (upath : CStr) : List Perms → List FsOp
  | [] => []
  | dp :: dps =>
    if !sysRuleMatches fnmatch upath dp then sysPermsLoop upath dps
    else if upath.length + (dp.attr.getD []).length + 6 > 512 then []
    else
      let buf := snprintf 512 (sysAttrPath upath dp)
      .chown buf dp.uid dp.gid :: .chmod buf dp.perm :: sysPermsLoop upath dps

/-- The relabelling that ends `fixup_sys_perms(upath)`: `/sys<upath>`, when it fits `buf` and
exists. -/
def restoreconSys (upath : CStr) (sysExists : Bool) : List FsOp :=
  if 512 ≤ ("/sys".toList ++ upath).length then []
  else if sysExists then [.restorecon ("/sys".toList ++ upath)] else []

/-- `fixup_sys_perms(upath)`. -/
def fixupSysPerms (sysPerms : List Perms) (upath : CStr) (sysExists : Bool) : List FsOp :=
  sysPermsLoop fnmatch upath sysPerms ++ restoreconSys upath sysExists

/-- The fixups in the words of the sysfs-rule description: `chown` and `chmod` of the attribute
path of every rule that matches and whose path is shorter than 512 bytes, in list order. -/
def describedSysFixups (upath : CStr) (rules : List Perms) : List FsOp :=
  (rules.filter fun dp =>
      sysRuleMatches fnmatch upath dp && decide ((sysAttrPath upath dp).length < 512)).flatMap
    fun dp => [.chown (sysAttrPath upath dp) dp.uid dp.gid, .chmod (sysAttrPath upath dp) dp.perm]

/-- A rule that ends the loop: it matches, and its attribute path does not fit. -/
def endsSysLoop (upath : CStr) (dp : Perms) : Bool :=
  sysRuleMatches fnmatch upath dp && !decide ((sysAttrPath upath dp).length < 512)

theorem sysAttrPath_length (upath : CStr) (dp : Perms) :
    (sysAttrPath upath dp).length = upath.length + (dp.attr.getD []).length + 5 := by
  simp [sysAttrPath]; omega

/-- The loop applies the described fixups of the rules before the first one that ends it. -/
theorem sysPermsLoop_eq (upath : CStr) (rules : List Perms) :
    sysPermsLoop fnmatch upath rules =
      describedSysFixups fnmatch upath (rules.takeWhile fun dp => !endsSysLoop fnmatch upath dp) := by
  induction rules with
  | nil => rfl
  | cons dp dps ih =>
    have hlen := sysAttrPath_length upath dp
    by_cases hm : sysRuleMatches fnmatch upath dp
    · by_cases hfit : upath.length + (dp.attr.getD []).length + 6 > 512
      · simp [sysPermsLoop, endsSysLoop, hm, hfit, describedSysFixups, show
          ¬ (sysAttrPath upath dp).length < 512 by omega]
      · simp [sysPermsLoop, endsSysLoop, hm, hfit, ih, describedSysFixups,
          show (sysAttrPath upath dp).length < 512 by omega, snprintf_of_lt]
    · simp [sysPermsLoop, endsSysLoop, hm, ih, describedSysFixups]

/-- A rule that ends the loop ends it at once. -/
theorem sysPermsLoop_of_ends {upath : CStr} {dp : Perms} (h : endsSysLoop fnmatch upath dp = true)
    (dps : List Perms) : sysPermsLoop fnmatch upath (dp :: dps) = [] := by
  have hlen := sysAttrPath_length upath dp
  simp only [endsSysLoop, Bool.and_eq_true, Bool.not_eq_true', decide_eq_false_iff_not] at h
  simp only [sysPermsLoop, h.1, Bool.not_true, Bool.false_eq_true, if_false]
  rw [if_pos (by omega)]

/-- The description passes over a rule that ends the loop. -/
theorem describedSysFixups_cons_of_ends {upath : CStr} {dp : Perms}
    (h : endsSysLoop fnmatch upath dp = true) (dps : List Perms) :
    describedSysFixups fnmatch upath (dp :: dps) = describedSysFixups fnmatch upath dps := by
  simp only [endsSysLoop, Bool.and_eq_true, Bool.not_eq_true', decide_eq_false_iff_not] at h
  simp [describedSysFixups, List.filter_cons, h.1, h.2]

end Sys

/-- **A long attribute path ends the sysfs fixups.** For every rule list and devpath,
`fixup_sys_perms` applies the described fixups only of the rules before the first matching rule
whose attribute path does not fit its 512-byte buffer: that rule's `break` also drops the fixups
of every later matching rule. Here a rule list built by `add_dev_perms` whose first matching rule
has a 497-byte attribute loses the fixup of a second matching rule. -/
theorem fixup_sys_perms_stops_at_long_path (fnmatch : Fnmatch) :
    (∀ (rules : List Perms) (upath : CStr) (sysExists : Bool),
      fixupSysPerms fnmatch rules upath sysExists =
        describedSysFixups fnmatch upath
            (rules.takeWhile fun dp => !endsSysLoop fnmatch upath dp) ++
          restoreconSys upath sysExists) ∧
    let calls : List AddCall :=
      [(true, ⟨"/sys/devices/foo".toList, some (List.replicate 497 'a'), 0o644, 1000, 1000,
          true, false⟩),
        (true, ⟨"/sys/devices/foo".toList, some "enable".toList, 0o660, 1000, 1000, false,
          false⟩)]
    fixupSysPerms literalFnmatch (runAdds .empty calls).sysPerms "/devices/foo".toList false = [] ∧
      describedSysFixups literalFnmatch "/devices/foo".toList (runAdds .empty calls).sysPerms =
        [.chown "/sys/devices/foo/enable".toList 1000 1000,
          .chmod "/sys/devices/foo/enable".toList 0o660] := by
  refine ⟨fun rules upath sysExists => by rw [fixupSysPerms, sysPermsLoop_eq], ?_⟩
  intro calls
  have hsys : (runAdds .empty calls).sysPerms = calls.map (·.2) := rfl
  have hlong : ((some (List.replicate 497 'a')).getD []).length = 497 := List.length_replicate _ _
  have hmatch : sysRuleMatches literalFnmatch "/devices/foo".toList
      ⟨"/sys/devices/foo".toList, some (List.replicate 497 'a'), 0o644, 1000, 1000, true, false⟩
      = true := by
    simp only [sysRuleMatches, permPathMatches, if_true]; decide
  -- the first rule matches, and its 514-byte path does not fit
  have hends : endsSysLoop literalFnmatch "/devices/foo".toList
      ⟨"/sys/devices/foo".toList, some (List.replicate 497 'a'), 0o644, 1000, 1000, true, false⟩
      = true := by
    simp only [endsSysLoop, sysAttrPath_length, hlong, hmatch]
    decide
  simp only [hsys, calls, List.map_cons, List.map_nil]
  refine ⟨by rw [fixupSysPerms, sysPermsLoop_of_ends _ hends]; rfl, ?_⟩
  rw [describedSysFixups_cons_of_ends _ hends]
  decide

end Ueventd
