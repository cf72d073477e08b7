/-
# Ueventd.Coldboot — replaying the `add` events of devices present at boot

Devices that appeared before `ueventd` started have sent their `add` events to nobody.
`do_coldboot` walks a part of `/sys` depth first and writes `add` to the `uevent` file of each
directory it visits, which makes the kernel send the event again; it drains the socket with
`handle_device_fd` after each write. It descends into the entries `readdir` lists as directories
(`DT_DIR`) whose name does not begin with `.`; that test is what keeps it out of `.` and `..`,
which list the directory itself and its parent, and off the symlinks of `/sys/class` and
`/sys/block`.

`/sys` is modelled as a graph: directories are numbers, `readdir` lists each directory's
entries in order with the directory each names, and the outcome of every `openat` and
`fdopendir` is part of the model. The recursion has fuel, its depth.

The main result (`do_coldboot_walks_tree`) is over every such graph in which the directories the
walk descends into form a finite tree: the walk returns once its fuel reaches the tree's depth,
and it writes `add` to the `uevent` file of exactly the directories it reaches that have one,
each once and before its subdirectories. A reached directory without a `uevent` file, such as
`/sys/devices` itself, is descended into and written to never
(`do_coldboot_skips_directory_without_uevent`).

The walk is then joined to the daemon. When the paths of the tree's directories follow the entry
names and the kernel answers each write with the events of the device in that directory, the
parent `ueventd` running the walk hands the platform registry a run in which no device is added
while one below it is registered (`coldboot_registers_parents_first`): the order under which
`Ueventd.Platform` proves that `find_platform_device` returns the deepest registered ancestor.
The step is that a pre-order walk never visits a directory whose path lies above the path of one
it visited before (`Lists.pairwise_not_below`).

`device_init` opens the socket and, in the parent and unless `COLDBOOT_DONE` exists, walks
`/sys/class`, `/sys/block` and `/sys/devices`, drains the deferred module queue and creates
`COLDBOOT_DONE`. Over any succession of starts that keep the file, the walk happens at most once,
and exactly once when some start is in the parent with the socket open
(`device_init_coldboots_once`).
-/
import Ueventd.DeviceFd

namespace Ueventd

/-! ## The directory graph -/

/-- `d_type` of a `struct dirent`: `DT_DIR`, `DT_REG`, `DT_LNK`, or another type. -/
inductive DType
  | dir
  | reg
  | lnk
  | other
  deriving DecidableEq, Repr

/-- A `struct dirent` as `readdir` returns it: its name, its type, and the directory a directory
entry names (`.` names the directory that lists it, `..` its parent). -/
structure Dirent where
  name : CStr
  dtype : DType
  ino : Nat
  deriving DecidableEq, Repr

/-- The part of `/sys` coldboot reads, with the outcome of each call on it. -/
structure Sysfs where
  /-- The entries `readdir` returns for a directory, in order. -/
  readdir : Nat → List Dirent
  /-- Whether `openat(dfd, "uevent", O_WRONLY)` opens the directory's `uevent` file. -/
  uevent : Nat → Bool
  /-- Whether `openat(dfd, name, O_RDONLY | O_DIRECTORY)` and then `fdopendir` open the
  directory. -/
  opens : Nat → Bool

/-- What `do_coldboot` does that the rest of the daemon sees. -/
inductive ColdbootOp
  /-- `write(fd, "add\n", 4)` on the directory's `uevent` file. -/
  | writeAdd (dir : Nat)
  /-- `handle_device_fd()`. -/
  | drain
  deriving DecidableEq, Repr

/-- The test of the `readdir` loop: `de->d_type != DT_DIR || de->d_name[0] == '.'`. -/
def Dirent.skipped (e : Dirent) : Bool := e.dtype != .dir || e.name.head? == some '.'

section Walk

variable (fs : Sysfs)

/-- The first lines of `do_coldboot(d)`: when `uevent` opens, write `add` to it and drain the
socket. -/
def pokeOps (d : Nat) : List ColdbootOp := if fs.uevent d then [.writeAdd d, .drain] else []

/-- The loop `while ((de = readdir(d)))` over the entries `es`, with `visit` the recursive call
on a subdirectory it opens; `none` when a call does not return. -/
def readdirLoop (visit : Nat → Option (List ColdbootOp)) : List Dirent → Option (List ColdbootOp)
  | [] => some []
  | e :: es =>
    let here := if e.skipped then some [] else if !fs.opens e.ino then some [] else visit e.ino
    here.bind fun ops => (readdirLoop visit es).map (ops ++ ·)

/-- `do_coldboot(d)`: what it does, in order; `none` when the recursion goes deeper than
`fuel`. -/
def doColdboot : Nat → Nat → Option (List ColdbootOp)
  | 0, _ => none
  | fuel + 1, d => (readdirLoop fs (doColdboot fuel) (fs.readdir d)).map (pokeOps fs d ++ ·)

/-- `coldboot(path)`: `do_coldboot` on the directory when `opendir` opens it. -/
def coldboot (fuel root : Nat) : Option (List ColdbootOp) :=
  if fs.opens root then doColdboot fs fuel root else some []

/-! ## The tree the walk descends -/

/-- The entries `do_coldboot` descends into: directories whose name does not begin with `.`, and
that it opens. -/
def walksInto (e : Dirent) : Bool := !e.skipped && fs.opens e.ino

/-- The directories reachable from `a` through entries the walk descends into. -/
inductive Reach (a : Nat) : Nat → Prop
  | refl : Reach a a
  | step {b : Nat} {e : Dirent} : Reach a b → e ∈ fs.readdir b → walksInto fs e = true →
      Reach a e.ino

end Walk

theorem Reach.trans {fs : Sysfs} {a b c : Nat} (hab : Reach fs a b) (hbc : Reach fs b c) :
    Reach fs a c := by
  induction hbc with
  | refl => exact hab
  | step _ he hw ih => exact .step ih he hw

/-- A finite tree of directories: a directory and its subtrees, in `readdir` order. -/
inductive DirTree
  | node (dir : Nat) (children : List DirTree)

namespace DirTree

/-- The directory at the root. -/
def root : DirTree → Nat
  | .node d _ => d

mutual
/-- The directories of a tree, each before its subtrees. -/
def dirs : DirTree → List Nat
  | .node d cs => d :: dirsList cs

/-- The directories of a list of trees, tree after tree. -/
def dirsList : List DirTree → List Nat
  | [] => []
  | c :: cs => c.dirs ++ dirsList cs
end

mutual
/-- The depth of a tree: `1` for a directory without subdirectories. -/
def height : DirTree → Nat
  | .node _ cs => heightList cs + 1

/-- The depth of the deepest tree of a list. -/
def heightList : List DirTree → Nat
  | [] => 0
  | c :: cs => max c.height (heightList cs)
end

@[simp] theorem root_node (d : Nat) (cs : List DirTree) : (node d cs).root = d := rfl

theorem root_mem_dirs (t : DirTree) : t.root ∈ t.dirs := by
  cases t
  exact List.mem_cons_self _ _

theorem dirsList_eq_flatMap (cs : List DirTree) : dirsList cs = cs.flatMap dirs := by
  induction cs with
  | nil => rfl
  | cons c cs ih => simp [dirsList, ih]

theorem mem_dirsList {x : Nat} {cs : List DirTree} : x ∈ dirsList cs ↔ ∃ c ∈ cs, x ∈ c.dirs := by
  rw [dirsList_eq_flatMap, List.mem_flatMap]

theorem dirs_sublist_dirsList {c : DirTree} {cs : List DirTree} (h : c ∈ cs) :
    c.dirs.Sublist (dirsList cs) := by
  induction cs with
  | nil => cases h
  | cons c' cs ih =>
    rcases List.mem_cons.mp h with rfl | h
    · exact List.sublist_append_left _ _
    · exact (ih h).trans (List.sublist_append_right _ _)

theorem height_le_heightList {c : DirTree} {cs : List DirTree} (h : c ∈ cs) :
    c.height ≤ heightList cs := by
  induction cs with
  | nil => cases h
  | cons c' cs ih =>
    rcases List.mem_cons.mp h with rfl | h
    · exact le_max_left _ _
    · exact (ih h).trans (le_max_right _ _)

theorem map_root_sublist (cs : List DirTree) : (cs.map root).Sublist (dirsList cs) := by
  induction cs with
  | nil => exact List.Sublist.slnil
  | cons c cs ih =>
    obtain ⟨d, cs'⟩ := c
    exact (ih.trans (List.sublist_append_right _ _)).cons₂ d

end DirTree

/-- `fs` lists the tree `t`: in each directory of `t`, the entries the walk descends into name
exactly the roots of its subtrees, in order. -/
inductive Lists (fs : Sysfs) : DirTree → Prop
  | node {d : Nat} {cs : List DirTree} :
      ((fs.readdir d).filter (walksInto fs)).map (·.ino) = cs.map DirTree.root →
      (∀ c ∈ cs, Lists fs c) → Lists fs (.node d cs)

namespace Lists

variable {fs : Sysfs}

/-- A subtree's root is named by an entry the walk descends into from the directory above it. -/
theorem exists_entry {d : Nat} {cs : List DirTree} (hch :
    ((fs.readdir d).filter (walksInto fs)).map (·.ino) = cs.map DirTree.root) {c : DirTree}
    (hc : c ∈ cs) : ∃ e ∈ (fs.readdir d).filter (walksInto fs), e.ino = c.root :=
  List.mem_map.mp (hch ▸ List.mem_map_of_mem DirTree.root hc)

theorem reach_child {d : Nat} {cs : List DirTree} (hch :
    ((fs.readdir d).filter (walksInto fs)).map (·.ino) = cs.map DirTree.root) {c : DirTree}
    (hc : c ∈ cs) : Reach fs d c.root := by
  obtain ⟨e, he, hino⟩ := exists_entry hch hc
  obtain ⟨hmem, hw⟩ := List.mem_filter.mp he
  exact hino ▸ .step .refl hmem hw

/-- Each directory of a listed tree roots a listed subtree, whose directories come in order
among the tree's. -/
theorem exists_subtree {t : DirTree} (ht : Lists fs t) {x : Nat} (hx : x ∈ t.dirs) :
    ∃ s, Lists fs s ∧ s.root = x ∧ s.dirs.Sublist t.dirs := by
  induction ht with
  | @node d cs hch hcs ih =>
    rcases List.mem_cons.mp hx with rfl | hx
    · exact ⟨_, .node hch hcs, rfl, List.Sublist.refl _⟩
    · obtain ⟨c, hc, hxc⟩ := DirTree.mem_dirsList.mp hx
      obtain ⟨s, hs, hroot, hsub⟩ := ih c hc hxc
      exact ⟨s, hs, hroot,
        (hsub.trans (DirTree.dirs_sublist_dirsList hc)).trans (List.sublist_cons_self _ _)⟩

/-- The directories of a listed tree are those reachable from its root. -/
theorem reach_iff {t : DirTree} (ht : Lists fs t) {x : Nat} : Reach fs t.root x ↔ x ∈ t.dirs := by
  constructor
  · intro hx
    induction hx with
    | refl => exact t.root_mem_dirs
    | @step b e _ he hw ih =>
      obtain ⟨⟨b', cs⟩, hs, rfl, hsub⟩ := ht.exists_subtree ih
      cases hs with
      | node hch _ =>
        obtain ⟨c, hc, hroot⟩ := List.mem_map.mp
          (hch ▸ List.mem_map_of_mem (fun e : Dirent => e.ino) (List.mem_filter.mpr ⟨he, hw⟩))
        exact hsub.subset (List.mem_cons_of_mem _
          (DirTree.mem_dirsList.mpr ⟨c, hc, hroot ▸ c.root_mem_dirs⟩))
  · intro hx
    induction ht with
    | @node d cs hch _ ih =>
      rcases List.mem_cons.mp hx with rfl | hx
      · exact .refl
      · obtain ⟨c, hc, hxc⟩ := DirTree.mem_dirsList.mp hx
        exact (reach_child hch hc).trans (ih c hc hxc)

end Lists

/-! ## What the walk does -/

section Walk

variable (fs : Sysfs)

/-- The calls of `do_coldboot` for a list of directories visited in turn. -/
def pokes (l : List Nat) : List ColdbootOp := l.flatMap (pokeOps fs)

theorem pokes_cons (d : Nat) (l : List Nat) : pokes fs (d :: l) = pokeOps fs d ++ pokes fs l :=
  rfl

theorem pokes_eq (l : List Nat) :
    pokes fs l = (l.filter fs.uevent).flatMap fun d => [.writeAdd d, .drain] := by
  induction l with
  | nil => rfl
  | cons d l ih =>
    by_cases h : fs.uevent d <;> simp [pokes, pokeOps, h, List.filter_cons] at ih ⊢ <;> exact ih

theorem pokes_dirsList (cs : List DirTree) :
    pokes fs (DirTree.dirsList cs) = cs.flatMap fun c => pokes fs c.dirs := by
  rw [DirTree.dirsList_eq_flatMap, pokes, List.flatMap_assoc]
  rfl

/-- One turn of the loop: the recursive call on an entry the walk descends into, nothing on the
others. -/
theorem readdirLoop_cons (visit : Nat → Option (List ColdbootOp)) (e : Dirent) (es : List Dirent) :
    readdirLoop fs visit (e :: es) =
      (if walksInto fs e then visit e.ino else some []).bind fun ops =>
        (readdirLoop fs visit es).map (ops ++ ·) := by
  by_cases hs : e.skipped = true <;> by_cases ho : fs.opens e.ino = true <;>
    simp [readdirLoop, walksInto, hs, ho]

/-- The loop visits the subtrees an entry list names, in order. -/
theorem readdirLoop_eq {visit : Nat → Option (List ColdbootOp)} {g : DirTree → List ColdbootOp}
    {es : List Dirent} {cs : List DirTree}
    (hch : (es.filter (walksInto fs)).map (·.ino) = cs.map DirTree.root)
    (hvisit : ∀ c ∈ cs, visit c.root = some (g c)) :
    readdirLoop fs visit es = some (cs.flatMap g) := by
  induction es generalizing cs with
  | nil =>
    cases cs with
    | nil => rfl
    | cons c cs => simp at hch
  | cons e es ih =>
    rw [readdirLoop_cons]
    by_cases he : walksInto fs e = true
    · obtain ⟨c, cs, rfl⟩ : ∃ c cs', cs = c :: cs' := by
        cases cs with
        | nil => simp [List.filter_cons, he] at hch
        | cons c cs => exact ⟨c, cs, rfl⟩
      simp only [List.filter_cons, he, if_true, List.map_cons, List.cons.injEq] at hch
      rw [if_pos he, hch.1, hvisit c (List.mem_cons_self _ _), Option.some_bind,
        ih hch.2 fun c' hc' => hvisit c' (List.mem_cons_of_mem _ hc'), Option.map_some',
        List.flatMap_cons]
    · simp only [List.filter_cons, he, Bool.false_eq_true, if_false] at hch
      rw [if_neg he, Option.some_bind, ih hch hvisit, Option.map_some', List.nil_append]

/-- **The walk of a listed tree.** Once the fuel reaches the tree's depth, `do_coldboot` on its
root returns, having done what `do_coldboot` does for each of its directories, in order. -/
theorem doColdboot_of_lists {t : DirTree} (ht : Lists fs t) :
    ∀ fuel, t.height ≤ fuel → doColdboot fs fuel t.root = some (pokes fs t.dirs) := by
  induction ht with
  | @node d cs hch _ ih =>
    intro fuel hfuel
    simp only [DirTree.height] at hfuel
    obtain ⟨f, rfl⟩ : ∃ f, fuel = f + 1 := ⟨fuel - 1, by omega⟩
    have hsub : ∀ c ∈ cs, doColdboot fs f c.root = some (pokes fs c.dirs) := fun c hc =>
      ih c hc f (by have := DirTree.height_le_heightList hc; omega)
    simp only [doColdboot, DirTree.root, readdirLoop_eq fs hch hsub, Option.map_some', DirTree.dirs,
      pokes_cons, pokes_dirsList]

end Walk

/-- **The coldboot walk.** For every directory graph and every outcome of the `openat` and
`fdopendir` calls, when the directories `do_coldboot` descends into from a root form a finite tree
(`.`, `..`, hidden entries and symlinks in the listings aside), `do_coldboot` on the root returns
once its fuel reaches the tree's depth. It writes `add` to the `uevent` file of exactly the
directories reachable from the root that have one it can open, each once and before any of its
subdirectories, and drains the socket after each write. -/
theorem do_coldboot_walks_tree (fs : Sysfs) (t : DirTree) (hlist : Lists fs t)
    (hnodup : t.dirs.Nodup) :
    ∃ w : List Nat,
      (∀ fuel, t.height ≤ fuel →
        doColdboot fs fuel t.root = some (w.flatMap fun d => [.writeAdd d, .drain])) ∧
      (∀ d, d ∈ w ↔ Reach fs t.root d ∧ fs.uevent d = true) ∧ w.Nodup ∧
      ∀ d d', Reach fs t.root d → Reach fs d d' → d ≠ d' → d ∈ w → d' ∈ w → [d, d'].Sublist w := by
  refine ⟨t.dirs.filter fs.uevent, fun fuel h => by rw [doColdboot_of_lists fs hlist fuel h, pokes_eq],
    fun d => by rw [List.mem_filter, hlist.reach_iff], hnodup.filter _,
    fun d d' hd hdd' hne hw hw' => ?_⟩
  obtain ⟨⟨r, cs⟩, hs, rfl, hsub⟩ := hlist.exists_subtree (hlist.reach_iff.mp hd)
  have hd' : d' ∈ DirTree.dirsList cs := by
    rcases List.mem_cons.mp (hs.reach_iff.mp hdd') with rfl | h
    · exact absurd rfl hne
    · exact h
  have hall : ∀ x ∈ [r, d'], fs.uevent x = true := by
    simp only [List.mem_cons, List.mem_singleton, List.not_mem_nil, or_false, forall_eq_or_imp,
      forall_eq]
    exact ⟨(List.mem_filter.mp hw).2, (List.mem_filter.mp hw').2⟩
  have := (((List.singleton_sublist.mpr hd').cons₂ r).trans hsub).filter fs.uevent
  rwa [List.filter_eq_self.mpr hall] at this

theorem do_coldboot_walks_sys_devices :
    let fs : Sysfs := ⟨fun d =>
        if d = 0 then [⟨".".toList, .dir, 0⟩, ⟨"..".toList, .dir, 0⟩,
          ⟨"platform".toList, .dir, 1⟩, ⟨".hidden".toList, .dir, 0⟩]
        else if d = 1 then [⟨".".toList, .dir, 1⟩, ⟨"..".toList, .dir, 0⟩,
          ⟨"uevent".toList, .reg, 3⟩, ⟨"soc.0".toList, .dir, 2⟩, ⟨"subsystem".toList, .lnk, 0⟩]
        else if d = 2 then [⟨".".toList, .dir, 2⟩, ⟨"..".toList, .dir, 1⟩,
          ⟨"uevent".toList, .reg, 4⟩]
        else [],
      fun d => d == 1 || d == 2, fun _ => true⟩
    let t : DirTree := .node 0 [.node 1 [.node 2 []]]
    Lists fs t ∧ t.dirs.Nodup ∧
    ∃ w : List Nat,
      (∀ fuel, t.height ≤ fuel →
        doColdboot fs fuel t.root = some (w.flatMap fun d => [.writeAdd d, .drain])) ∧
      (∀ d, d ∈ w ↔ Reach fs t.root d ∧ fs.uevent d = true) ∧ w.Nodup ∧
      ∀ d d', Reach fs t.root d → Reach fs d d' → d ≠ d' → d ∈ w → d' ∈ w →
        [d, d'].Sublist w := by
  intro fs t
  have h2 : Lists fs (.node 2 []) := .node (by decide) fun _ h => absurd h (List.not_mem_nil _)
  have h1 : Lists fs (.node 1 [.node 2 []]) :=
    .node (by decide) fun c hc => (List.mem_singleton.mp hc) ▸ h2
  have h0 : Lists fs t := .node (by decide) fun c hc => (List.mem_singleton.mp hc) ▸ h1
  exact ⟨h0, by decide, do_coldboot_walks_tree fs t h0 (by decide)⟩

/-- `/sys/devices` has no `uevent` file: the walk starts there, and returns having written
`add` only below it. -/
theorem do_coldboot_skips_directory_without_uevent :
    let fs : Sysfs := ⟨fun d =>
        if d = 0 then [⟨".".toList, .dir, 0⟩, ⟨"..".toList, .dir, 0⟩, ⟨"platform".toList, .dir, 1⟩]
        else [⟨".".toList, .dir, 1⟩, ⟨"..".toList, .dir, 0⟩, ⟨"uevent".toList, .reg, 2⟩],
      fun d => d == 1, fun _ => true⟩
    Reach fs 0 0 ∧ fs.uevent 0 = false ∧ doColdboot fs 2 0 = some [.writeAdd 1, .drain] :=
  ⟨.refl, rfl, rfl⟩

/-! ## Coldboot and the platform registry -/

/-- The entries `d` descends into have distinct names without `/`, and the path of the directory
each names is the path of `d`, a `/`, and the entry's name. -/
def NamesPaths (fs : Sysfs) (path : Nat → CStr) (d : Nat) : Prop :=
  (∀ e ∈ fs.readdir d, walksInto fs e = true →
    '/' ∉ e.name ∧ path e.ino = path d ++ '/' :: e.name) ∧
    (((fs.readdir d).filter (walksInto fs)).map fun e : Dirent => e.name).Nodup

instance (fs : Sysfs) (path : Nat → CStr) (d : Nat) : Decidable (NamesPaths fs path d) :=
  inferInstanceAs (Decidable ((∀ e ∈ fs.readdir d, walksInto fs e = true →
    '/' ∉ e.name ∧ path e.ino = path d ++ '/' :: e.name) ∧
    (((fs.readdir d).filter (walksInto fs)).map fun e : Dirent => e.name).Nodup))

/-- Two names without `/`, each followed by one, of which one starts the other, are equal. -/
theorem eq_of_prefix_slash {n n' : CStr} (h : '/' ∉ n) (h' : '/' ∉ n')
    (hp : n ++ ['/'] <+: n' ++ ['/']) : n = n' := by
  induction n generalizing n' with
  | nil =>
    cases n' with
    | nil => rfl
    | cons c n' => simp_all
  | cons c n ih =>
    cases n' with
    | nil => simp_all
    | cons c' n' =>
      simp only [List.cons_append, List.cons_prefix_cons, List.mem_cons, not_or] at hp h h'
      rw [hp.1, ih h.2 h'.2 hp.2]

/-- Of two paths, each under `p` followed by a name without `/`, one below the other lies under
the same name. -/
theorem name_eq_of_dirBelow {p a b n n' : CStr} (hn : '/' ∉ n) (hn' : '/' ∉ n')
    (ha : p ++ '/' :: n ++ ['/'] <+: a ++ ['/']) (hb : p ++ '/' :: n' ++ ['/'] <+: b ++ ['/'])
    (hbelow : DirBelow b a) : n = n' := by
  have hb' := hb.trans (hbelow.trans (List.prefix_append _ ['/']))
  simp only [List.append_assoc, List.cons_append, List.singleton_append] at ha hb'
  rcases List.prefix_or_prefix_of_prefix ha hb' with h | h
  · exact eq_of_prefix_slash hn hn' (by simpa using h)
  · exact (eq_of_prefix_slash hn' hn (by simpa using h)).symm

namespace Lists

variable {fs : Sysfs} {path : Nat → CStr}

/-- The path of each directory of a listed tree extends the root's by whole names. -/
theorem path_under {t : DirTree} (ht : Lists fs t) (hn : ∀ d ∈ t.dirs, NamesPaths fs path d)
    {b : Nat} (hb : b ∈ t.dirs) : path t.root ++ ['/'] <+: path b ++ ['/'] := by
  induction ht with
  | @node d cs hch _ ih =>
    rcases List.mem_cons.mp hb with rfl | hb
    · exact List.prefix_refl _
    · obtain ⟨c, hc, hbc⟩ := DirTree.mem_dirsList.mp hb
      obtain ⟨e, he, hino⟩ := exists_entry hch hc
      have hpath := ((hn d (List.mem_cons_self _ _)).1 e (List.mem_filter.mp he).1
        (List.mem_filter.mp he).2).2
      have hsub := ih c hc (fun x hx => hn x
        (List.mem_cons_of_mem _ (DirTree.mem_dirsList.mpr ⟨c, hc, hx⟩))) hbc
      rw [← hino, hpath] at hsub
      exact List.IsPrefix.trans ⟨e.name ++ ['/'], by simp⟩ hsub

/-- **The walk never goes back up.** In a listed tree whose paths follow the entry names, no
directory's path lies strictly above the path of a directory the walk visits before it. -/
theorem pairwise_not_below {t : DirTree} (ht : Lists fs t) (hn : ∀ d ∈ t.dirs, NamesPaths fs path d)
    (hnd : t.dirs.Nodup) : t.dirs.Pairwise fun a b => ¬ DirBelow (path b) (path a) := by
  induction ht with
  | @node d cs hch hcs ih =>
    have hnc : ∀ c ∈ cs, ∀ x ∈ c.dirs, NamesPaths fs path x := fun c hc x hx =>
      hn x (List.mem_cons_of_mem _ (DirTree.mem_dirsList.mpr ⟨c, hc, hx⟩))
    -- each subtree hangs off `d` by an entry whose name has no `/`, and lies under it
    have hchild : ∀ c ∈ cs, ∃ e ∈ (fs.readdir d).filter (walksInto fs), e.ino = c.root ∧
        '/' ∉ e.name ∧ ∀ x ∈ c.dirs, path d ++ '/' :: e.name ++ ['/'] <+: path x ++ ['/'] :=
      fun c hc => by
        obtain ⟨e, he, hino⟩ := exists_entry hch hc
        obtain ⟨hs, hpath⟩ := (hn d (List.mem_cons_self _ _)).1 e (List.mem_filter.mp he).1
          (List.mem_filter.mp he).2
        refine ⟨e, he, hino, hs, fun x hx => ?_⟩
        rw [← hpath, hino]
        exact (hcs c hc).path_under (hnc c hc) hx
    have hndl : (DirTree.dirsList cs).Nodup := (List.nodup_cons.mp hnd).2
    have hroots : (cs.map DirTree.root).Nodup := hndl.sublist (DirTree.map_root_sublist cs)
    simp only [DirTree.dirs, List.pairwise_cons]
    refine ⟨fun b hb hbelow => ?_, ?_⟩
    · -- a directory below `d` has a longer path than `d`
      obtain ⟨c, hc, hbc⟩ := DirTree.mem_dirsList.mp hb
      obtain ⟨e, -, -, -, hunder⟩ := hchild c hc
      have hle := (hunder b hbc).length_le
      have hlt := hbelow.length_le
      simp only [List.length_append, List.length_cons, List.length_singleton] at hle hlt
      omega
    · rw [DirTree.dirsList_eq_flatMap, List.pairwise_flatMap]
      refine ⟨fun c hc => ih c hc (hnc c hc) (hndl.sublist (DirTree.dirs_sublist_dirsList hc)),
        (List.Nodup.of_map _ hroots).pairwise_of_forall_ne fun c hc c' hc' hne a ha b hb hbelow => ?_⟩
      -- two subtrees under one name are one subtree
      obtain ⟨e, he, hino, hs, hunder⟩ := hchild c hc
      obtain ⟨e', he', hino', hs', hunder'⟩ := hchild c' hc'
      have hname := name_eq_of_dirBelow hs hs' (hunder a ha) (hunder' b hb) hbelow
      have he_eq : e = e' := List.inj_on_of_nodup_map (hn d (List.mem_cons_self _ _)).2 he he' hname
      exact hne (List.inj_on_of_nodup_map hroots hc hc' (hino ▸ hino' ▸ he_eq ▸ rfl))

end Lists

section Daemon

variable (fnmatch : Fnmatch) (fwDirs : List CStr) (fwFuel : Nat)

/-- The parent `ueventd` running `do_coldboot`'s operations: a write to the `uevent` file of `d`
makes the kernel queue `answer d` on the socket, and `handle_device_fd()` handles what is
queued. -/
def coldbootDaemon (answer : Nat → List (Recv × EventEnv)) :
    List (Recv × EventEnv) → DeviceState → List ColdbootOp → Option DeviceState
  | _, st, [] => some st
  | _, st, .writeAdd d :: ops => coldbootDaemon answer (answer d) st ops
  | queued, st, .drain :: ops =>
    (handleDeviceFd fnmatch fwDirs fwFuel false [] st queued).bind fun st =>
      coldbootDaemon answer [] st ops

/-- Over writes each followed by a drain, the registry runs the platform events of what the
kernel answered to each write, in order. -/
theorem coldbootDaemon_writes (answer : Nat → List (Recv × EventEnv)) (w : List Nat)
    (queued : List (Recv × EventEnv)) (st : DeviceState) :
    ∃ st', coldbootDaemon fnmatch fwDirs fwFuel answer queued st
        (w.flatMap fun d => [.writeAdd d, .drain]) = some st' ∧
      st'.platformNames = platformRun st.platformNames
        (w.flatMap fun d => platformEvents (acceptedMessages (answer d))) := by
  induction w generalizing queued st with
  | nil => exact ⟨st, rfl, rfl⟩
  | cons d w ih =>
    obtain ⟨st', hrun, hreg⟩ := ih [] { st with
      platformNames := platformRun st.platformNames (platformEvents (acceptedMessages (answer d)))
      modules := (moduleRun fnmatch st.modules (moduleSteps (acceptedMessages (answer d)))).1
      inserted := st.inserted ++
        (moduleRun fnmatch st.modules (moduleSteps (acceptedMessages (answer d)))).2 }
    refine ⟨st', ?_, ?_⟩
    · simp only [List.flatMap_cons, List.cons_append, List.singleton_append, coldbootDaemon,
        handleDeviceFd_eq, handleMessages_parent, Option.some_bind, List.nil_append]
      exact hrun
    · rw [hreg, List.flatMap_cons, platformRun, platformRun, platformRun, List.foldl_append]

/-- **Coldboot registers platform devices parent first.** Let the directories `do_coldboot`
descends into from a root form a finite tree whose paths follow the entry names, let the kernel
answer each write to a directory's `uevent` file with messages whose platform events are all for
that directory's path, and let nothing registered lie below a directory of the tree. Then the
parent `ueventd` running the walk returns, and the platform registry ends as
`handle_platform_device_event` leaves it after the platform events of the answers to the writes,
in the walk's order; and those events add no device while one below it is registered. -/
theorem coldboot_registers_parents_first (fs : Sysfs) (path : Nat → CStr) (t : DirTree)
    (hlist : Lists fs t) (hnames : ∀ d ∈ t.dirs, NamesPaths fs path d) (hnodup : t.dirs.Nodup)
    (answer : Nat → List (Recv × EventEnv))
    (hanswer : ∀ d ∈ t.dirs, ∀ ev ∈ platformEvents (acceptedMessages (answer d)), ev.2 = path d)
    (st : DeviceState) (hreg : ∀ e ∈ st.platformNames, ∀ d ∈ t.dirs, ¬ DirBelow (path d) e.path)
    (n : Nat) (hn : t.height ≤ n) :
    let evs := (t.dirs.filter fs.uevent).flatMap fun d =>
      platformEvents (acceptedMessages (answer d))
    ParentsFirst st.platformNames evs ∧
      ∃ ops st', doColdboot fs n t.root = some ops ∧
        coldbootDaemon fnmatch fwDirs fwFuel answer [] st ops = some st' ∧
        st'.platformNames = platformRun st.platformNames evs := by
  intro evs
  have hw : (t.dirs.filter fs.uevent).Sublist t.dirs := List.filter_sublist _
  have hpath : ∀ ev ∈ evs, ∃ d ∈ t.dirs, ev.2 = path d := fun ev hev => by
    obtain ⟨d, hd, hev⟩ := List.mem_flatMap.mp hev
    exact ⟨d, hw.subset hd, hanswer d (hw.subset hd) ev hev⟩
  refine ⟨parentsFirst_of_pairwise (fun e he ev hev => ?_) ?_, ?_⟩
  · obtain ⟨d, hd, hp⟩ := hpath ev hev
    exact hp ▸ hreg e he d hd
  · refine List.pairwise_flatMap.mpr ⟨fun d hd => List.pairwise_of_forall_mem_list
      fun ev hev ev' hev' => ?_, ((hlist.pairwise_not_below hnames hnodup).sublist hw).imp_of_mem
      fun {d d'} hd hd' hdd' ev hev ev' hev' => ?_⟩
    · rw [hanswer d (hw.subset hd) ev hev, hanswer d (hw.subset hd) ev' hev']
      exact DirBelow.irrefl _
    · rw [hanswer d (hw.subset hd) ev hev, hanswer d' (hw.subset hd') ev' hev']
      exact hdd'
  · obtain ⟨st', hrun, hst'⟩ := coldbootDaemon_writes fnmatch fwDirs fwFuel answer
      (t.dirs.filter fs.uevent) [] st
    exact ⟨_, st', by rw [doColdboot_of_lists fs hlist n hn, pokes_eq], hrun, hst'⟩

end Daemon

theorem coldboot_registers_soc :
    let fs : Sysfs := ⟨fun d =>
        if d = 0 then [⟨".".toList, .dir, 0⟩, ⟨"..".toList, .dir, 0⟩,
          ⟨"platform".toList, .dir, 1⟩, ⟨".hidden".toList, .dir, 0⟩]
        else if d = 1 then [⟨".".toList, .dir, 1⟩, ⟨"..".toList, .dir, 0⟩,
          ⟨"uevent".toList, .reg, 3⟩, ⟨"soc.0".toList, .dir, 2⟩, ⟨"subsystem".toList, .lnk, 0⟩]
        else if d = 2 then [⟨".".toList, .dir, 2⟩, ⟨"..".toList, .dir, 1⟩,
          ⟨"uevent".toList, .reg, 4⟩]
        else [],
      fun d => d == 1 || d == 2, fun _ => true⟩
    let path : Nat → CStr := fun d =>
      if d = 0 then "/devices".toList else if d = 1 then "/devices/platform".toList
      else "/devices/platform/soc.0".toList
    let env : EventEnv := ⟨⟨none, none, false, fun _ => 0, true⟩, fwEnvNoFile⟩
    let answer : Nat → List (Recv × EventEnv) := fun d =>
      if d = 2 then [(.datagram ("add@/devices/platform/soc.0".toList ++
          nul :: "ACTION=add".toList ++ nul :: "DEVPATH=/devices/platform/soc.0".toList ++
          nul :: "SUBSYSTEM=platform".toList), env), (.fail, env)]
      else []
    let t : DirTree := .node 0 [.node 1 [.node 2 []]]
    let st : DeviceState := ⟨[], ⟨[], [], []⟩, [], []⟩
    Lists fs t ∧ (∀ d ∈ t.dirs, NamesPaths fs path d) ∧ t.dirs.Nodup ∧
      (∀ d ∈ t.dirs, ∀ ev ∈ platformEvents (acceptedMessages (answer d)), ev.2 = path d) ∧
      (∀ e ∈ st.platformNames, ∀ d ∈ t.dirs, ¬ DirBelow (path d) e.path) ∧ t.height ≤ 3 ∧
      let evs := (t.dirs.filter fs.uevent).flatMap fun d =>
        platformEvents (acceptedMessages (answer d))
      ParentsFirst st.platformNames evs ∧
        ∃ ops st', doColdboot fs 3 t.root = some ops ∧
          coldbootDaemon literalFnmatch firmwareDirsX86 1 answer [] st ops = some st' ∧
          st'.platformNames = platformRun st.platformNames evs := by
  intro fs path env answer t st
  have h2 : Lists fs (.node 2 []) := .node (by decide) fun _ h => absurd h (List.not_mem_nil _)
  have h1 : Lists fs (.node 1 [.node 2 []]) :=
    .node (by decide) fun c hc => (List.mem_singleton.mp hc) ▸ h2
  have h0 : Lists fs t := .node (by decide) fun c hc => (List.mem_singleton.mp hc) ▸ h1
  have hnames : ∀ d ∈ t.dirs, NamesPaths fs path d := by decide
  have hanswer : ∀ d ∈ t.dirs, ∀ ev ∈ platformEvents (acceptedMessages (answer d)),
      ev.2 = path d := by decide
  exact ⟨h0, hnames, by decide, hanswer, by decide, by decide,
    coldboot_registers_parents_first literalFnmatch firmwareDirsX86 1 fs path t h0 hnames
      (by decide) answer hanswer st (by decide) 3 (by decide)⟩

/-! ## `device_init` -/

/-- What `device_init` finds at one call. -/
structure InitEnv where
  /-- Whether `uevent_open_socket` opens the netlink socket. -/
  socketOk : Bool
  /-- The directories `/sys/class`, `/sys/block` and `/sys/devices`. -/
  sysClass : Nat
  sysBlock : Nat
  sysDevices : Nat
  /-- Whether `open(COLDBOOT_DONE, O_WRONLY | O_CREAT | O_CLOEXEC, 0000)` creates the file. -/
  createsDone : Bool

/-- What `device_init` does after opening the socket, in order. -/
inductive InitOp
  /-- `coldboot(path)`, with what it did. -/
  | coldboot (ops : List ColdbootOp)
  /-- `handle_deferred_module_loading()`. -/
  | deferredLoading
  /-- `close(open(COLDBOOT_DONE, ...))`. -/
  | markDone
  deriving DecidableEq, Repr

/-- `device_init(child)`, with `done` whether `COLDBOOT_DONE` exists: what it does, and whether
`COLDBOOT_DONE` exists after it; `none` when a walk goes deeper than `fuel`. -/
def deviceInit (fs : Sysfs) (fuel : Nat) (env : InitEnv) (child done : Bool) :
    Option (List InitOp × Bool) :=
  if !env.socketOk then some ([], done)
  else if child then some ([], done)
  else if done then some ([], done)
  else
    (coldboot fs fuel env.sysClass).bind fun a =>
      (coldboot fs fuel env.sysBlock).bind fun b =>
        (coldboot fs fuel env.sysDevices).map fun c =>
          ([.coldboot a, .coldboot b, .coldboot c, .deferredLoading, .markDone], env.createsDone)

/-- Successive starts of `ueventd`, each calling `device_init` in the child or not and with
what it finds; `COLDBOOT_DONE` persists between them. What each call does, up to the first walk
deeper than `fuel`. -/
def initRun (fs : Sysfs) (fuel : Nat) : Bool → List (Bool × InitEnv) → List (List InitOp)
  | _, [] => []
  | done, (child, env) :: calls =>
    match deviceInit fs fuel env child done with
    | none => []
    | some (ops, done') => ops :: initRun fs fuel done' calls

/-- A call in the child, without a socket, or with `COLDBOOT_DONE` present does nothing and leaves
the file as it was. -/
theorem deviceInit_idle (fs : Sysfs) (fuel : Nat) {env : InitEnv} {child done : Bool}
    (h : (!env.socketOk || child || done) = true) :
    deviceInit fs fuel env child done = some ([], done) := by
  simp only [Bool.or_eq_true] at h
  unfold deviceInit
  rcases h with (h | h) | h <;> simp [h]

/-- Without `COLDBOOT_DONE`, `device_init` either does nothing and leaves it absent, or walks and
leaves it as its creation left it. -/
theorem deviceInit_absent {fs : Sysfs} {fuel : Nat} {env : InitEnv} {child : Bool}
    {ops : List InitOp} {done : Bool} (h : deviceInit fs fuel env child false = some (ops, done)) :
    (ops = [] ∧ done = false) ∨ done = env.createsDone := by
  by_cases hidle : (!env.socketOk || child || false) = true
  · rw [deviceInit_idle fs fuel hidle, Option.some.injEq, Prod.mk.injEq] at h
    exact .inl ⟨h.1.symm, h.2.symm⟩
  · obtain ⟨hs, rfl⟩ : env.socketOk = true ∧ child = false := by simpa using hidle
    simp only [deviceInit, hs, Bool.not_true, Bool.false_eq_true, if_false, Option.bind_eq_some,
      Option.map_eq_some', Prod.mk.injEq] at h
    obtain ⟨_, _, _, _, _, _, -, rfl⟩ := h
    exact .inr rfl

/-- In the parent, with the socket open and no `COLDBOOT_DONE`, `device_init` walks the three
roots when the walks return, and leaves `COLDBOOT_DONE` as its creation left it. -/
theorem deviceInit_walks (fs : Sysfs) (fuel : Nat) {env : InitEnv} (hs : env.socketOk = true)
    (hret : ∀ r ∈ [env.sysClass, env.sysBlock, env.sysDevices], (coldboot fs fuel r).isSome) :
    ∃ ops, ops ≠ [] ∧ deviceInit fs fuel env false false = some (ops, env.createsDone) := by
  simp only [List.mem_cons, List.mem_singleton, List.not_mem_nil, or_false, forall_eq_or_imp,
    forall_eq, Option.isSome_iff_exists] at hret
  obtain ⟨⟨a, ha⟩, ⟨b, hb⟩, ⟨c, hc⟩⟩ := hret
  exact ⟨[.coldboot a, .coldboot b, .coldboot c, .deferredLoading, .markDone],
    List.cons_ne_nil _ _, by simp [deviceInit, hs, ha, hb, hc]⟩

theorem initRun_done (fs : Sysfs) (fuel : Nat) (calls : List (Bool × InitEnv)) :
    ∀ ops ∈ initRun fs fuel true calls, ops = [] := by
  induction calls with
  | nil => simp [initRun]
  | cons c calls ih =>
    obtain ⟨child, env⟩ := c
    simpa [initRun, deviceInit_idle] using ih

theorem initRun_done_countP (fs : Sysfs) (fuel : Nat) (calls : List (Bool × InitEnv)) :
    (initRun fs fuel true calls).countP (fun ops => !ops.isEmpty) = 0 :=
  List.countP_eq_zero.mpr fun ops hops => by simp [initRun_done fs fuel calls ops hops]

/-- **Coldboot runs once per `COLDBOOT_DONE`.** Over any succession of `ueventd` starts in which
`COLDBOOT_DONE` is created when asked, no call of `device_init` walks `/sys` when the file
exists at the start, and at most one does when it does not. When every walk returns, exactly one
does if some start is in the parent with the socket open, and none otherwise. -/
theorem device_init_coldboots_once (fs : Sysfs) (fuel : Nat) (calls : List (Bool × InitEnv))
    (hcreate : ∀ c ∈ calls, c.2.createsDone = true) :
    (∀ ops ∈ initRun fs fuel true calls, ops = []) ∧
      (initRun fs fuel false calls).countP (fun ops => !ops.isEmpty) ≤ 1 ∧
      ((∀ c ∈ calls, ∀ r ∈ [c.2.sysClass, c.2.sysBlock, c.2.sysDevices],
          (coldboot fs fuel r).isSome) →
        (initRun fs fuel false calls).countP (fun ops => !ops.isEmpty) =
          if calls.any fun c => !c.1 && c.2.socketOk then 1 else 0) := by
  refine ⟨initRun_done fs fuel calls, ?_, ?_⟩
  · induction calls with
    | nil => simp [initRun]
    | cons c calls ih =>
      obtain ⟨child, env⟩ := c
      simp only [initRun]
      split
      · simp
      · rename_i ops done h
        rcases deviceInit_absent h with ⟨rfl, rfl⟩ | rfl
        · simpa using ih fun c hc => hcreate c (List.mem_cons_of_mem _ hc)
        · rw [hcreate _ (List.mem_cons_self _ _), List.countP_cons, initRun_done_countP]
          split <;> omega
  · intro hret
    induction calls with
    | nil => simp [initRun]
    | cons c calls ih =>
      obtain ⟨child, env⟩ := c
      have htail := ih (fun c hc => hcreate c (List.mem_cons_of_mem _ hc))
        fun c hc => hret c (List.mem_cons_of_mem _ hc)
      by_cases hw : (!child && env.socketOk) = true
      · obtain ⟨rfl, hs⟩ : child = false ∧ env.socketOk = true := by simpa using hw
        obtain ⟨ops, hne, hops⟩ := deviceInit_walks fs fuel hs (hret _ (List.mem_cons_self _ _))
        have hdone : env.createsDone = true := hcreate _ (List.mem_cons_self _ _)
        simp [initRun, hops, hdone, initRun_done_countP, hs, hne]
      · simp only [Bool.not_eq_true] at hw
        have hidle : (!env.socketOk || child || false) = true := by
          revert hw
          cases child <;> simp
        simp only [List.any_cons, hw, Bool.false_or, ← htail]
        simp [initRun, deviceInit_idle fs fuel hidle]

theorem device_init_coldboots_once_three_starts :
    let fs : Sysfs := ⟨fun d => if d = 0 then [⟨"platform".toList, .dir, 1⟩] else [],
      fun d => d == 1, fun _ => true⟩
    let env : InitEnv := ⟨true, 0, 0, 0, true⟩
    let calls := [(true, env), (false, env), (false, env)]
    (∀ c ∈ calls, c.2.createsDone = true) ∧
      (∀ ops ∈ initRun fs 3 true calls, ops = []) ∧
      (initRun fs 3 false calls).countP (fun ops => !ops.isEmpty) ≤ 1 ∧
      ((∀ c ∈ calls, ∀ r ∈ [c.2.sysClass, c.2.sysBlock, c.2.sysDevices],
          (coldboot fs 3 r).isSome) →
        (initRun fs 3 false calls).countP (fun ops => !ops.isEmpty) =
          if calls.any fun c => !c.1 && c.2.socketOk then 1 else 0) := by
  intro fs env calls
  exact ⟨by decide, device_init_coldboots_once fs 3 calls (by decide)⟩

end Ueventd
