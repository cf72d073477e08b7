/-
# Ueventd.Perms — the permission rule store and `get_device_perm`

`add_dev_perms` appends each rule that the `ueventd.rc` parser reads to one of two lists: a rule
that names a sysfs attribute to `sys_perms`, any other to `dev_perms`. A device node takes the
permissions of the first rule met when `dev_perms` is scanned from its end that matches the
node's path or, failing that, one of its symlinks; so a later rule (from `ueventd.$hardware.rc`)
overrides an earlier one. With no match the node is `0600 root:root`.

Glob matching is `fnmatch(3)`, a parameter of the model: every result holds whatever `fnmatch`
decides.
-/
import Ueventd.CString

namespace Ueventd

/-- `struct perms_`. The `unsigned short` flags `prefix` and `wildcard` are only ever tested for
being non-zero. -/
structure Perms where
  name : CStr
  attr : Option CStr
  perm : Nat
  uid : Nat
  gid : Nat
  prefixed : Bool
  wildcard : Bool
  deriving DecidableEq, Repr

/-- The lists `sys_perms` and `dev_perms`, in insertion order. -/
structure PermStore where
  sysPerms : List Perms
  devPerms : List Perms
  deriving DecidableEq, Repr

/-- The store before the first rule. -/
def PermStore.empty : PermStore := ⟨[], []⟩

/-- `-ENOMEM`. -/
def eNoMem : Int := -12

/-- `add_dev_perms(name, attr, perm, uid, gid, prefix, wildcard)`, the arguments gathered in the
node they fill; `allocOk` is whether every `calloc` and `strdup` succeeds. A failed allocation
links nothing in. -/
def addDevPerms (allocOk : Bool) (dp : Perms) (st : PermStore) : Int × PermStore :=
  if !allocOk then (eNoMem, st)
  else if dp.attr.isSome then (0, { st with sysPerms := st.sysPerms ++ [dp] })
  else (0, { st with devPerms := st.devPerms ++ [dp] })

/-- One call of `add_dev_perms`: whether its allocations succeed, and the rule. -/
abbrev AddCall := Bool × Perms

/-- The store after a sequence of calls. -/
def runAdds (st : PermStore) (calls : List AddCall) : PermStore :=
  calls.foldl (fun st c => (addDevPerms c.1 c.2 st).2) st

/-- The rules a sequence of calls links into `dev_perms`, in order. -/
def devRulesOf (calls : List AddCall) : List Perms :=
  (calls.filter fun c => c.1 && c.2.attr.isNone).map (·.2)

theorem devPerms_runAdds (st : PermStore) (calls : List AddCall) :
    (runAdds st calls).devPerms = st.devPerms ++ devRulesOf calls := by
  induction calls generalizing st with
  | nil => simp [runAdds, devRulesOf]
  | cons c calls ih =>
    obtain ⟨ok, dp⟩ := c
    rw [runAdds, List.foldl_cons, ← runAdds, ih]
    cases ok <;> cases h : dp.attr <;> simp [addDevPerms, devRulesOf, h]

section Lookup

variable (fnmatch : Fnmatch)

/-- `perm_path_matches(path, dp)`: `strncmp` over the rule name's length for a prefix rule,
`fnmatch(name, path, FNM_PATHNAME)` for a wildcard rule, `strcmp` otherwise. -/
def permPathMatches (path : CStr) (dp : Perms) : Bool :=
  if dp.prefixed then decide (dp.name <+: path)
  else if dp.wildcard then fnmatch true dp.name path
  else path == dp.name

/-- The test of one iteration of `get_device_perm`: the path, then each link of the
NULL-terminated array `links` (`none` for a NULL array). -/
def ruleMatches (path : CStr) (links : Option (List CStr)) (dp : Perms) : Bool :=
  permPathMatches fnmatch path dp || (links.getD []).any (permPathMatches fnmatch · dp)

/-- `get_device_perm(path, links, &uid, &gid)`, returned as `(perm, uid, gid)`. -/
def getDevicePerm (st : PermStore) (path : CStr) (links : Option (List CStr)) : Nat × Nat × Nat :=
  match st.devPerms.reverse.find? (ruleMatches fnmatch path links) with
  | some dp => (dp.perm, dp.uid, dp.gid)
  | none => (0o600, 0, 0)

theorem ruleMatches_iff {path : CStr} {links : Option (List CStr)} {dp : Perms} :
    ruleMatches fnmatch path links dp = true ↔
      permPathMatches fnmatch path dp = true ∨
        ∃ l ∈ links.getD [], permPathMatches fnmatch l dp = true := by
  simp [ruleMatches, List.any_eq_true]

/-- `get_device_perm` returns the permissions of the newest rule of `dev_perms` that matches the
path or one of the links, or `0600 root:root` when none does. -/
theorem getDevicePerm_cases (st : PermStore) (path : CStr) (links : Option (List CStr)) :
    (∃ pre dp post, st.devPerms = pre ++ dp :: post ∧ ruleMatches fnmatch path links dp = true ∧
        (∀ dp' ∈ post, ruleMatches fnmatch path links dp' = false) ∧
        getDevicePerm fnmatch st path links = (dp.perm, dp.uid, dp.gid)) ∨
      ((∀ dp ∈ st.devPerms, ruleMatches fnmatch path links dp = false) ∧
        getDevicePerm fnmatch st path links = (0o600, 0, 0)) := by
  unfold getDevicePerm
  cases h : st.devPerms.reverse.find? (ruleMatches fnmatch path links) with
  | some dp =>
    obtain ⟨hdp, pre, post, hsplit, hpost⟩ := find?_reverse_eq_some.mp h
    exact .inl ⟨pre, dp, post, hsplit, hdp, hpost, rfl⟩
  | none =>
    refine .inr ⟨fun dp hdp => ?_, rfl⟩
    simpa using List.find?_eq_none.mp h dp (List.mem_reverse.mpr hdp)

/-- **The latest matching rule decides.** After any sequence of `add_dev_perms` calls, a node
gets the permissions of the most recently added rule without attribute that matches its path or
one of its links, and `0600 root:root` when none does; rules with an attribute play no part. In
particular, whatever rules come before a matching rule, the result is that rule's or a later
one's, even when it matches only through a link and an earlier one matches the path itself. -/
theorem get_device_perm_latest_match (calls : List AddCall) (path : CStr)
    (links : Option (List CStr)) :
    ((∃ pre dp post, devRulesOf calls = pre ++ dp :: post ∧
        (permPathMatches fnmatch path dp ∨ ∃ l ∈ links.getD [], permPathMatches fnmatch l dp) ∧
        (∀ dp' ∈ post, ¬ (permPathMatches fnmatch path dp' ∨
          ∃ l ∈ links.getD [], permPathMatches fnmatch l dp')) ∧
        getDevicePerm fnmatch (runAdds .empty calls) path links = (dp.perm, dp.uid, dp.gid)) ∨
      ((∀ dp ∈ devRulesOf calls, ¬ (permPathMatches fnmatch path dp ∨
          ∃ l ∈ links.getD [], permPathMatches fnmatch l dp)) ∧
        getDevicePerm fnmatch (runAdds .empty calls) path links = (0o600, 0, 0))) ∧
    ∀ pre dp' post, devRulesOf calls = pre ++ dp' :: post →
      (permPathMatches fnmatch path dp' ∨ ∃ l ∈ links.getD [], permPathMatches fnmatch l dp') →
      ∃ dp ∈ dp' :: post,
        getDevicePerm fnmatch (runAdds .empty calls) path links = (dp.perm, dp.uid, dp.gid) := by
  have hdev : (runAdds .empty calls).devPerms = devRulesOf calls := by
    simp [devPerms_runAdds, PermStore.empty]
  simp only [← ruleMatches_iff]
  rcases getDevicePerm_cases fnmatch (runAdds .empty calls) path links with
    ⟨pre, dp, post, hsplit, hdp, hpost, hget⟩ | ⟨hnone, hget⟩ <;> rw [hdev] at *
  · refine ⟨.inl ⟨pre, dp, post, hsplit, hdp, fun dp' h' => by simp [hpost dp' h'], hget⟩, ?_⟩
    intro pre' dp' post' hsplit' hdp'
    exact ⟨dp, mem_cons_of_last_hit (hsplit.symm.trans hsplit') hpost hdp', hget⟩
  · refine ⟨.inr ⟨fun dp hdp => by simp [hnone dp hdp], hget⟩, ?_⟩
    intro pre dp' post hsplit hdp'
    simp [hnone dp' (by simp [hsplit])] at hdp'

end Lookup

end Ueventd
