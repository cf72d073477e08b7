/-
# Ueventd.Firmware — the firmware loading handshake

For a `firmware` `add` event the kernel waits on `/sys<DEVPATH>/loading` and `/sys<DEVPATH>/data`.
`process_firmware_event` opens both, looks for the requested file in each of `firmware_dirs`,
and streams it with `load_firmware`: `"1"` to `loading`, the file to `data`, then `"0"` when the
copy went through or `"-1"` when it did not. When no directory has the file and the system is
still booting, it sleeps 100 ms and searches again.

The model is the trace of what the handler does to the outside world (`FwEffect`): opens,
writes and closes of the three descriptors, and the sleeps. Every external call is an input:
`asprintf`, the `open`s, `fstat`, each `read` and `WriteFully`, and `is_booting()` at each of its
calls (`FwEnv`). The retry loop need not end while booting lasts; the model gets one unit of fuel
per pass over `firmware_dirs`, and `none` is a run that has not returned yet.

`data` receives the file read by read, up to where the copy stops, and `loading` the commit
exactly when the copy reached `st_size` or the end of the file
(`load_firmware_copies_read_prefix`). While booting, a pass that finds nothing is followed by one
sleep and another pass, and the handler returns after the first pass that finds the file, fails
to build a path, or runs once booting is over (`process_firmware_event_retries`).
-/
import Ueventd.CString

namespace Ueventd

/-- The descriptors `process_firmware_event` opens. -/
inductive Fd
  | loading | data | firmware
  deriving DecidableEq, Repr

/-- What the handler does to the outside world. -/
inductive FwEffect
  | opened (fd : Fd)
  | write (fd : Fd) (bytes : List Char)
  | close (fd : Fd)
  /-- `usleep(100000)`. -/
  | sleep
  deriving DecidableEq, Repr

/-- One `read(fw_fd, buf, sizeof(buf))`: the bytes it returns, with whether `WriteFully` of them
to `data` succeeds (no bytes is end of file), or a failure. -/
inductive FwRead
  | bytes (b : List Char) (writeOk : Bool)
  | error
  deriving DecidableEq, Repr

/-- A firmware file as `load_firmware` meets it. -/
structure FwFile where
  /-- `st_size` from `fstat`, `none` when `fstat` fails. -/
  size : Option Nat
  /-- What the successive `read`s return; past the end of the list `read` returns 0. -/
  reads : List FwRead
  deriving DecidableEq, Repr

/-- `firmware_dirs` on x86. -/
def firmwareDirsX86 : List CStr := ["/system/lib/firmware".toList]

/-- `firmware_dirs` on the other targets. -/
def firmwareDirsOther : List CStr :=
  ["/etc/firmware".toList, "/vendor/firmware".toList, "/firmware/image".toList]

/-! ## `load_firmware` -/

/-- The copy loop of `load_firmware` with `len_to_copy` bytes left: its `ret` and its writes to
`data`. A failed `WriteFully` ends the copy; what it may have written before failing is not
recorded. -/
def copyLoop (len : Int) : List FwRead → Int × List FwEffect
  | [] => (0, [])
  | r :: rs =>
    if len ≤ 0 then (0, [])
    else
      match r with
      | .error => (-1, [])
      | .bytes b ok =>
        if b = [] then (0, [])
        else if ok then
          let rest := copyLoop (len - b.length) rs
          (rest.1, .write .data b :: rest.2)
        else (-1, [])

/-- `load_firmware(fw_fd, loading_fd, data_fd)`: `"1"` to `loading`, the copy, then `"0"` or
`"-1"`; nothing at all when `fstat` fails. -/
def loadFirmware (f : FwFile) : Int × List FwEffect :=
  match f.size with
  | none => (-1, [])
  | some size =>
    let r := copyLoop size f.reads
    (r.1, .write .loading "1".toList :: r.2 ++
      [.write .loading (if r.1 = 0 then "0".toList else "-1".toList)])

/-! ## `process_firmware_event` -/

/-- The outcomes of the external calls of one `process_firmware_event`. -/
structure FwEnv where
  /-- `is_booting()` at its `k`-th call: `0` at entry, `k` after the `k`-th sleep. -/
  booting : Nat → Bool
  /-- The `asprintf`s of the `root`, `loading` and `data` paths. -/
  rootOk : Bool
  loadingPathOk : Bool
  dataPathOk : Bool
  /-- The `open`s of `loading` and `data`. -/
  loadingOpens : Bool
  dataOpens : Bool
  /-- The `asprintf` of a candidate path in a given pass. -/
  pathOk : Nat → CStr → Bool
  /-- The `open` of a candidate path in a given pass: the file, or `none`. -/
  openFw : Nat → CStr → Option FwFile

/-- The result of one pass of the `for` loop over `firmware_dirs`. -/
inductive FwSearch
  | found (f : FwFile)
  | notFound
  /-- `asprintf` of a candidate failed: `goto data_free_out`. -/
  | allocFail

/-- One pass over the candidate paths, in order. -/
def searchDirs (env : FwEnv) (pass : Nat) : List CStr → FwSearch
  | [] => .notFound
  | file :: files =>
    if !env.pathOk pass file then .allocFail
    else
      match env.openFw pass file with
      | some f => .found f
      | none => searchDirs env pass files

/-- The paths `asprintf(&file, "%s/%s", firmware_dirs[i], uevent->firmware)` builds. -/
def candidatePaths (dirs : List CStr) (firmware : CStr) : List CStr :=
  dirs.map fun dir => dir ++ ['/'] ++ firmware

/-- From `try_loading_again` on, in pass `pass` with the `booting` flag of that pass: the effects
up to the return, `none` when the fuel runs out first. -/
def searchLoop (env : FwEnv) (files : List CStr) : Nat → Nat → Bool → Option (List FwEffect)
  | 0, _, _ => none
  | fuel + 1, pass, booting =>
    match searchDirs env pass files with
    | .allocFail => some []
    | .found f =>
      some (.opened .firmware :: (loadFirmware f).2 ++ [.close .firmware, .close .data, .close .loading])
    | .notFound =>
      if booting then
        (searchLoop env files fuel (pass + 1) (env.booting (pass + 1))).map (.sleep :: ·)
      else some [.write .loading "-1".toList, .close .data, .close .loading]

/-- `process_firmware_event(uevent)` for the firmware `firmware`, searching `dirs`. -/
def processFirmwareEvent (env : FwEnv) (dirs : List CStr) (firmware : CStr) (fuel : Nat) :
    Option (List FwEffect) :=
  if !env.rootOk || !env.loadingPathOk || !env.dataPathOk || !env.loadingOpens then some []
  else if !env.dataOpens then some [.opened .loading, .close .loading]
  else (searchLoop env (candidatePaths dirs firmware) fuel 0 (env.booting 0)).map
    ([.opened .loading, .opened .data] ++ ·)

/-- What a run writes to `loading`, in order. -/
def loadingWrites (effs : List FwEffect) : List (List Char) :=
  effs.filterMap fun
    | .write .loading b => some b
    | _ => none

/-! ## What `loading` receives -/

/-- What one run may write to `loading`: nothing, an abort, or a start followed by a commit or an
abort. -/
def loadingSequences : List (List (List Char)) :=
  [[], ["-1".toList], ["1".toList, "0".toList], ["1".toList, "-1".toList]]

@[simp] theorem loadingWrites_append (a b : List FwEffect) :
    loadingWrites (a ++ b) = loadingWrites a ++ loadingWrites b :=
  List.filterMap_append ..

/-- The copy writes to `data` only. -/
theorem loadingWrites_copyLoop (len : Int) (rs : List FwRead) :
    loadingWrites (copyLoop len rs).2 = [] := by
  induction rs generalizing len with
  | nil => rfl
  | cons r rs ih =>
    unfold copyLoop
    split_ifs
    · rfl
    · cases r with
      | error => rfl
      | bytes b ok => dsimp only; split_ifs <;> first | rfl | exact ih _

theorem loadingWrites_loadFirmware (f : FwFile) :
    loadingWrites (loadFirmware f).2 ∈ loadingSequences := by
  unfold loadFirmware
  split
  · simp [loadingWrites, loadingSequences]
  · have h0 := fun len => loadingWrites_copyLoop len f.reads
    simp only [loadingWrites] at h0 ⊢
    split_ifs <;> simp [h0, loadingSequences]

theorem loadingWrites_searchLoop (env : FwEnv) (files : List CStr) (fuel pass : Nat)
    (booting : Bool) {effs : List FwEffect} (h : searchLoop env files fuel pass booting = some effs) :
    loadingWrites effs ∈ loadingSequences := by
  induction fuel generalizing pass booting effs with
  | zero => simp [searchLoop] at h
  | succ fuel ih =>
    simp only [searchLoop] at h
    split at h
    · cases h; simp [loadingWrites, loadingSequences]
    · cases h
      simpa [loadingWrites] using loadingWrites_loadFirmware _
    · split at h
      · obtain ⟨effs', h', rfl⟩ := Option.map_eq_some'.mp h
        simpa [loadingWrites] using ih _ _ h'
      · cases h; simp [loadingWrites, loadingSequences]

/-- **The `loading` handshake.** Every run of the handler that returns writes to `loading`
nothing, an abort, or `"1"` followed by `"0"` or `"-1"`: never a second start, never a commit
without a start, never more than one end. -/
theorem process_firmware_event_loading_sequence {env : FwEnv} {dirs : List CStr}
    {firmware : CStr} {fuel : Nat} {effs : List FwEffect}
    (h : processFirmwareEvent env dirs firmware fuel = some effs) :
    loadingWrites effs ∈ loadingSequences := by
  unfold processFirmwareEvent at h
  split_ifs at h
  · cases h; simp [loadingWrites, loadingSequences]
  · cases h; simp [loadingWrites, loadingSequences]
  · obtain ⟨effs', h', rfl⟩ := Option.map_eq_some'.mp h
    simpa [loadingWrites] using loadingWrites_searchLoop env _ fuel 0 _ h'

/-! ## What `data` receives -/

/-- The copy loop from any remainder: it writes to `data` the bytes of a prefix of the reads,
each read whole and written, and it returns `0` exactly when that prefix reaches `len` bytes
or the next read meets the end of the file. -/
theorem copyLoop_spec (len : Int) (rs : List FwRead) :
    ∃ (chunks : List (List Char)) (rest : List FwRead),
      rs = chunks.map (fun b => FwRead.bytes b true) ++ rest ∧ (∀ b ∈ chunks, b ≠ []) ∧
      (copyLoop len rs).2 = chunks.map (.write .data) ∧
      ((copyLoop len rs).1 = 0 ↔
        len ≤ (chunks.flatten.length : Int) ∨ ∀ r ∈ rest.head?, ∃ ok, r = .bytes [] ok) ∧
      ((copyLoop len rs).1 = 0 ∨ (copyLoop len rs).1 = -1) := by
  induction rs generalizing len with
  | nil => exact ⟨[], [], rfl, nofun, rfl, iff_of_true rfl (.inr nofun), .inl rfl⟩
  | cons r rs ih =>
    -- the loop stops at `r`, having written nothing
    have stop : ∀ ret, copyLoop len (r :: rs) = (ret, []) →
        (ret = 0 ↔ len ≤ 0 ∨ ∃ ok, r = .bytes [] ok) → (ret = 0 ∨ ret = -1) →
        ∃ (chunks : List (List Char)) (rest : List FwRead),
          r :: rs = chunks.map (fun b => FwRead.bytes b true) ++ rest ∧ (∀ b ∈ chunks, b ≠ []) ∧
          (copyLoop len (r :: rs)).2 = chunks.map (.write .data) ∧
          ((copyLoop len (r :: rs)).1 = 0 ↔
            len ≤ (chunks.flatten.length : Int) ∨ ∀ r ∈ rest.head?, ∃ ok, r = .bytes [] ok) ∧
          ((copyLoop len (r :: rs)).1 = 0 ∨ (copyLoop len (r :: rs)).1 = -1) :=
      fun ret h hiff hval => ⟨[], r :: rs, rfl, nofun, by rw [h]; rfl, by simpa [h] using hiff,
        by rw [h]; exact hval⟩
    by_cases hlen : len ≤ 0
    · exact stop 0 (by simp only [copyLoop, if_pos hlen]) (iff_of_true rfl (.inl hlen)) (.inl rfl)
    cases r with
    | error =>
      exact stop (-1) (by simp only [copyLoop, if_neg hlen])
        (iff_of_false (by decide) (by rintro (h | ⟨ok, ⟨⟩⟩); exact hlen h)) (.inr rfl)
    | bytes b ok =>
      by_cases hb : b = []
      · subst hb
        exact stop 0 (by simp only [copyLoop, if_neg hlen, if_true])
          (iff_of_true rfl (.inr ⟨ok, rfl⟩)) (.inl rfl)
      cases ok
      · exact stop (-1) (by simp only [copyLoop, if_neg hlen, if_neg hb]; rfl)
          (iff_of_false (by decide) (by rintro (h | ⟨ok, h⟩); exact hlen h; cases h; exact hb rfl))
          (.inr rfl)
      · obtain ⟨chunks, rest, rfl, hne, hw, hret, hval⟩ := ih (len - b.length)
        simp only [copyLoop, if_neg hlen, if_neg hb, if_true]
        refine ⟨b :: chunks, rest, rfl, ?_, by rw [hw]; rfl, ?_, hval⟩
        · exact List.forall_mem_cons.mpr ⟨hb, hne⟩
        · rw [hret]
          simp only [List.flatten_cons, List.length_append, Nat.cast_add]
          exact or_congr_left (by omega)

/-- **`data` receives a prefix of the file, read by read.** For every `st_size` and every
sequence of `read` outcomes, `load_firmware` writes `"1"` to `loading`, then to `data` the
bytes of the reads up to where it stops, each read whole and in order, then `"0"` or `"-1"`. It
returns `0` or `-1`, and `0` exactly when the bytes written reach `st_size` or the next read
meets the end of the file: a file that is shorter than its `st_size` is committed too. -/
theorem load_firmware_copies_read_prefix (size : Nat) (reads : List FwRead) :
    ∃ (chunks : List (List Char)) (rest : List FwRead),
      reads = chunks.map (fun b => FwRead.bytes b true) ++ rest ∧ (∀ b ∈ chunks, b ≠ []) ∧
      (loadFirmware ⟨some size, reads⟩).2 = .write .loading "1".toList ::
        chunks.map (.write .data) ++ [.write .loading
          (if (loadFirmware ⟨some size, reads⟩).1 = 0 then "0".toList else "-1".toList)] ∧
      ((loadFirmware ⟨some size, reads⟩).1 = 0 ↔
        size ≤ chunks.flatten.length ∨ ∀ r ∈ rest.head?, ∃ ok, r = .bytes [] ok) ∧
      ((loadFirmware ⟨some size, reads⟩).1 = 0 ∨ (loadFirmware ⟨some size, reads⟩).1 = -1) := by
  obtain ⟨chunks, rest, hreads, hne, hw, hret, hval⟩ := copyLoop_spec size reads
  refine ⟨chunks, rest, hreads, hne, ?_, ?_, hval⟩
  · simp only [loadFirmware, hw, List.cons_append]
  · simpa only [loadFirmware, Nat.cast_le] using hret

example : loadFirmware ⟨some 4096, [.bytes "abc".toList true]⟩ =
    (0, [.write .loading "1".toList, .write .data "abc".toList, .write .loading "0".toList]) := by
  decide

/-! ## Descriptors -/

/-- The descriptors open after the effects, from those open before: an `open` adds one, a
`close` drops it. -/
def openFds (fds : List Fd) : List FwEffect → List Fd
  | [] => fds
  | .opened fd :: effs => openFds (fd :: fds) effs
  | .close fd :: effs => openFds (fds.erase fd) effs
  | _ :: effs => openFds fds effs

@[simp] theorem openFds_opened (fds : List Fd) (fd : Fd) (effs : List FwEffect) :
    openFds fds (.opened fd :: effs) = openFds (fd :: fds) effs := rfl

@[simp] theorem openFds_close (fds : List Fd) (fd : Fd) (effs : List FwEffect) :
    openFds fds (.close fd :: effs) = openFds (fds.erase fd) effs := rfl

@[simp] theorem openFds_write (fds : List Fd) (fd : Fd) (b : List Char) (effs : List FwEffect) :
    openFds fds (.write fd b :: effs) = openFds fds effs := rfl

@[simp] theorem openFds_sleep (fds : List Fd) (effs : List FwEffect) :
    openFds fds (.sleep :: effs) = openFds fds effs := rfl

theorem openFds_append (fds : List Fd) (a b : List FwEffect) :
    openFds fds (a ++ b) = openFds (openFds fds a) b := by
  induction a generalizing fds with
  | nil => rfl
  | cons e a ih => rw [List.cons_append]; cases e <;> exact ih _

/-- The copy only writes. -/
theorem openFds_loadFirmware (fds : List Fd) (f : FwFile) : openFds fds (loadFirmware f).2 = fds := by
  have hcopy : ∀ len rs fds, openFds fds (copyLoop len rs).2 = fds := by
    intro len rs
    induction rs generalizing len with
    | nil => intro; rfl
    | cons r rs ih =>
      intro fds
      unfold copyLoop
      split_ifs
      · rfl
      · cases r with
        | error => rfl
        | bytes b ok => dsimp only; split_ifs <;> first | rfl | exact ih _ fds
  unfold loadFirmware
  split
  · rfl
  · simp only [List.cons_append, openFds_write, openFds_append, hcopy]
    rfl

/-- From `try_loading_again` on, with `loading` and `data` open: every exit closes both, save
the one after a failed `asprintf` of a candidate path, which closes neither. -/
theorem openFds_searchLoop {env : FwEnv} {files : List CStr} {fuel pass : Nat} {booting : Bool}
    {effs : List FwEffect} (h : searchLoop env files fuel pass booting = some effs) :
    openFds [.data, .loading] effs = [] ∨
      (openFds [.data, .loading] effs = [.data, .loading] ∧
        ∃ pass', searchDirs env pass' files = .allocFail) := by
  induction fuel generalizing pass booting effs with
  | zero => simp [searchLoop] at h
  | succ fuel ih =>
    simp only [searchLoop] at h
    split at h
    · cases h; exact .inr ⟨rfl, pass, ‹_›⟩
    · cases h
      left
      simp only [List.cons_append, openFds_opened, openFds_append, openFds_loadFirmware]
      rfl
    · split at h
      · obtain ⟨effs', h', rfl⟩ := Option.map_eq_some'.mp h
        simpa only [openFds_sleep] using ih h'
      · cases h; exact .inl rfl

/-- Every run of `process_firmware_event` that returns closes what it opened, except after a
failed `asprintf` of a candidate path, when `loading` and `data` stay open. -/
theorem openFds_processFirmwareEvent {env : FwEnv} {dirs : List CStr} {firmware : CStr}
    {fuel : Nat} {effs : List FwEffect} (h : processFirmwareEvent env dirs firmware fuel = some effs) :
    openFds [] effs = [] ∨
      (openFds [] effs = [.data, .loading] ∧
        ∃ pass, searchDirs env pass (candidatePaths dirs firmware) = .allocFail) := by
  unfold processFirmwareEvent at h
  split_ifs at h
  · cases h; exact .inl rfl
  · cases h; exact .inl rfl
  · obtain ⟨effs', h', rfl⟩ := Option.map_eq_some'.mp h
    simpa only [List.cons_append, List.nil_append, openFds_opened] using openFds_searchLoop h'

/-- An environment where every call succeeds, the system has booted, and no candidate exists. -/
def fwEnvNoFile : FwEnv :=
  ⟨fun _ => false, true, true, true, true, true, fun _ _ => true, fun _ _ => none⟩

/-- **Three exits without a terminal write.** The handler opens `loading` and returns without
writing `"0"` or `"-1"` to it when the `data` file cannot be opened, when `asprintf` of a
candidate path fails, and when `fstat` of the firmware file fails; in the last case it writes
nothing at all, not even `"1"`. -/
theorem process_firmware_event_silent_exits :
    processFirmwareEvent { fwEnvNoFile with dataOpens := false } firmwareDirsX86 "foo.bin".toList 1
      = some [.opened .loading, .close .loading] ∧
    processFirmwareEvent { fwEnvNoFile with pathOk := fun _ _ => false } firmwareDirsX86
      "foo.bin".toList 1 = some [.opened .loading, .opened .data] ∧
    processFirmwareEvent { fwEnvNoFile with openFw := fun _ _ => some ⟨none, []⟩ } firmwareDirsX86
      "foo.bin".toList 1 =
      some [.opened .loading, .opened .data, .opened .firmware, .close .firmware, .close .data,
        .close .loading] := by
  decide

/-- A missing firmware file once the system has booted: the handler aborts the transfer. -/
theorem firmware_missing_aborts :
    processFirmwareEvent fwEnvNoFile firmwareDirsX86 "foo.bin".toList 1 =
        some [.opened .loading, .opened .data, .write .loading "-1".toList, .close .data,
          .close .loading] ∧
      loadingWrites [.opened .loading, .opened .data, .write .loading "-1".toList, .close .data,
        .close .loading] ∈ loadingSequences :=
  ⟨by decide, @process_firmware_event_loading_sequence fwEnvNoFile firmwareDirsX86 "foo.bin".toList
    1 _ (by decide)⟩

/-! ## The retry loop -/

section Retry

variable {env : FwEnv} {files : List CStr}

/-- Passes that find nothing while booting each end in one sleep. -/
theorem searchLoop_wait {p k : Nat}
    (hwait : ∀ i < k, searchDirs env (p + i) files = .notFound ∧ env.booting (p + i) = true)
    (fuel : Nat) :
    searchLoop env files (fuel + k) p (env.booting p) =
      (searchLoop env files fuel (p + k) (env.booting (p + k))).map
        (List.replicate k .sleep ++ ·) := by
  induction k generalizing p with
  | zero => simp
  | succ k ih =>
    obtain ⟨hnf, hb⟩ := hwait 0 (Nat.succ_pos k)
    rw [Nat.add_zero] at hnf hb
    have hrest := ih (p := p + 1) fun i hi => by
      simpa only [Nat.add_assoc, Nat.add_comm 1] using hwait (i + 1) (by omega)
    rw [← Nat.add_assoc, searchLoop, hnf, hb, if_pos rfl, hrest, Option.map_map,
      show p + 1 + k = p + (k + 1) by omega]
    rfl

/-- A pass that finds the file, fails an allocation, or runs after booting is the last. -/
theorem searchLoop_stop {k : Nat}
    (hstop : searchDirs env k files ≠ .notFound ∨ env.booting k = false) (fuel : Nat) :
    searchLoop env files (fuel + 1) k (env.booting k) = searchLoop env files 1 k (env.booting k) ∧
      (searchLoop env files 1 k (env.booting k)).isSome := by
  simp only [searchLoop]
  rcases h : searchDirs env k files with _ | _ | _
  · simp
  · simp only [h, ne_eq, not_true_eq_false, false_or] at hstop
    simp [hstop]
  · simp

end Retry

/-- **The retry loop.** When the sysfs files open, and the search finds nothing in each of the
first `k` passes while `is_booting()` holds, then stops at pass `k` (the file is found, a path
cannot be built, or the system has booted): `process_firmware_event` has not returned after
`k` passes, and with any more it returns the effects of those `k` passes, one sleep each, then of
the last pass. -/
theorem process_firmware_event_retries {env : FwEnv} {dirs : List CStr} {firmware : CStr}
    {k : Nat}
    (hsetup : (env.rootOk && env.loadingPathOk && env.dataPathOk && env.loadingOpens &&
      env.dataOpens) = true)
    (hwait : ∀ i < k, searchDirs env i (candidatePaths dirs firmware) = .notFound ∧
      env.booting i = true)
    (hstop : searchDirs env k (candidatePaths dirs firmware) ≠ .notFound ∨ env.booting k = false) :
    (∀ fuel ≤ k, processFirmwareEvent env dirs firmware fuel = none) ∧
      ∃ last, searchLoop env (candidatePaths dirs firmware) 1 k (env.booting k) = some last ∧
        ∀ fuel, k < fuel → processFirmwareEvent env dirs firmware fuel =
          some ([.opened .loading, .opened .data] ++ List.replicate k .sleep ++ last) := by
  simp only [Bool.and_eq_true] at hsetup
  obtain ⟨⟨⟨⟨h1, h2⟩, h3⟩, h4⟩, h5⟩ := hsetup
  have hwait0 : ∀ i < k, searchDirs env (0 + i) (candidatePaths dirs firmware) = .notFound ∧
      env.booting (0 + i) = true := fun i hi => by simpa using hwait i hi
  have hrun : ∀ fuel, processFirmwareEvent env dirs firmware fuel =
      (searchLoop env (candidatePaths dirs firmware) fuel 0 (env.booting 0)).map
        ([.opened .loading, .opened .data] ++ ·) := fun fuel => by
    simp [processFirmwareEvent, h1, h2, h3, h4, h5]
  obtain ⟨-, hsome⟩ := searchLoop_stop hstop 0
  obtain ⟨last, hl⟩ := Option.isSome_iff_exists.mp hsome
  refine ⟨fun fuel hfuel => ?_, last, hl, fun fuel hfuel => ?_⟩
  · rw [hrun, ← Nat.zero_add fuel, searchLoop_wait (fun i hi => hwait0 i (by omega))]
    rfl
  · obtain ⟨j, rfl⟩ := Nat.exists_eq_add_of_lt hfuel
    rw [hrun, show k + j + 1 = (j + 1) + k by omega, searchLoop_wait hwait0, Nat.zero_add,
      (searchLoop_stop hstop j).1, hl]
    simp

theorem process_firmware_event_retries_found_third :
    let env : FwEnv := { fwEnvNoFile with
      booting := fun i => decide (i < 2)
      openFw := fun p _ => if p = 2 then some ⟨some 3, [.bytes "abc".toList true]⟩ else none }
    (env.rootOk && env.loadingPathOk && env.dataPathOk && env.loadingOpens &&
      env.dataOpens) = true ∧
    (∀ i < 2, searchDirs env i (candidatePaths firmwareDirsX86 "foo.bin".toList) = .notFound ∧
      env.booting i = true) ∧
    (searchDirs env 2 (candidatePaths firmwareDirsX86 "foo.bin".toList) ≠ .notFound ∨
      env.booting 2 = false) ∧
    (∀ fuel ≤ 2, processFirmwareEvent env firmwareDirsX86 "foo.bin".toList fuel = none) ∧
      ∃ last, searchLoop env (candidatePaths firmwareDirsX86 "foo.bin".toList) 1 2
          (env.booting 2) = some last ∧
        ∀ fuel, 2 < fuel → processFirmwareEvent env firmwareDirsX86 "foo.bin".toList fuel =
          some ([.opened .loading, .opened .data] ++ List.replicate 2 .sleep ++ last) := by
  intro env
  have hwait : ∀ i < 2, searchDirs env i (candidatePaths firmwareDirsX86 "foo.bin".toList) =
      .notFound ∧ env.booting i = true := fun i hi => by
    interval_cases i <;> exact ⟨rfl, rfl⟩
  exact ⟨rfl, hwait, .inr rfl, process_firmware_event_retries rfl hwait (.inr rfl)⟩

end Ueventd
