/-
# Ueventd.UeventRecords — what `parse_event` computes

The abstract reading of a kernel message is a list of records: split the buffer at its NULs and
keep the records before the first empty one (`liveRecords`). Each field of the event then holds
the value of the last record that begins with the field's tag, or its default (`lastTagged`).

`Framed s rs` says that `s` is the records `rs`, each NUL-terminated, followed by an empty
record. Every buffer `handle_device_fd` hands over is framed by its live records, because of the
two NULs it writes at `msg[n]` and `msg[n+1]`: a record that reaches the end of the datagram is
closed by the first, and the second is the empty record that stops the loop. On a framed buffer
the loop is a fold of `applyRecord` over the records (`parseLoop_framed`); the field law, the
bound on every pointer and the round trip through a serialised event all follow from that fold.
-/
import Ueventd.Uevent

namespace Ueventd

/-! ## Records -/

/-- The records of `s` up to its first empty record, `cur` holding the current one reversed. -/
def liveRecordsAux : CStr → List Char → List CStr
  | _, [] => []
  | cur, c :: s =>
    if c = nul then (if cur = [] then [] else cur.reverse :: liveRecordsAux [] s)
    else liveRecordsAux (c :: cur) s

/-- Split at NULs, keeping the records before the first empty one: `r₁ ␀ r₂ ␀ … rₖ ␀ ␀ …` gives
`[r₁, …, rₖ]`. A record still open at the end of the buffer is not counted. -/
def liveRecords (s : List Char) : List CStr :=
  liveRecordsAux [] s

theorem liveRecordsAux_append {r : CStr} (hr : nul ∉ r) (cur : CStr) (rest : List Char) :
    liveRecordsAux cur (r ++ nul :: rest) =
      if cur.reverse ++ r = [] then [] else (cur.reverse ++ r) :: liveRecords rest := by
  induction r generalizing cur with
  | nil => simp [liveRecordsAux, liveRecords]
  | cons c r ih =>
    have hc : c ≠ nul := fun h => hr (h ▸ List.mem_cons_self _ _)
    rw [List.cons_append, liveRecordsAux, if_neg hc, ih (fun h => hr (List.mem_cons_of_mem _ h))]
    simp

theorem liveRecords_nul (rest : List Char) : liveRecords (nul :: rest) = [] := by
  simp [liveRecords, liveRecordsAux]

theorem liveRecords_record {r : CStr} (hne : r ≠ []) (hr : nul ∉ r) (rest : List Char) :
    liveRecords (r ++ nul :: rest) = r :: liveRecords rest := by
  simp [liveRecords, liveRecordsAux_append hr, hne]

/-- `s` begins with the non-empty NUL-terminated records `rs`, then an empty record. -/
inductive Framed : List Char → List CStr → Prop
  | stop (rest : List Char) : Framed (nul :: rest) []
  | record {r : CStr} {rest : List Char} {rs : List CStr} :
      r ≠ [] → nul ∉ r → Framed rest rs → Framed (r ++ nul :: rest) (r :: rs)

/-- The message from just past a record and its NUL. -/
theorem drop_past_record {msg rest : List Char} {r : CStr} {off : Nat}
    (hmsg : msg.drop off = r ++ nul :: rest) : msg.drop (off + r.length + 1) = rest := by
  rw [show off + r.length + 1 = off + (r.length + 1) by omega, ← List.drop_drop, hmsg,
    List.drop_append_eq_append_drop]
  simp

/-- Bytes after the empty record do not change the framing. -/
theorem Framed.append_right {s : List Char} {rs : List CStr} (h : Framed s rs) (junk : List Char) :
    Framed (s ++ junk) rs := by
  induction h with
  | stop rest => exact .stop _
  | record hne hr _ ih => simpa using Framed.record hne hr ih

theorem exists_first_nul {l : List Char} (h : nul ∈ l) : ∃ r t, l = r ++ nul :: t ∧ nul ∉ r := by
  induction l with
  | nil => simp at h
  | cons c l ih =>
    by_cases hc : c = nul
    · exact ⟨[], l, by simp [hc], by simp⟩
    · obtain ⟨r, t, rfl, hr⟩ := ih ((List.mem_cons.mp h).resolve_left (Ne.symm hc))
      exact ⟨c :: r, t, rfl, by simp [hr, Ne.symm hc]⟩

/-- **The double padding frames every message.** A buffer NUL-padded twice is framed by its live
records, whatever its `n` bytes. -/
theorem framed_padded (body : List Char) :
    Framed (body ++ [nul, nul]) (liveRecords (body ++ [nul, nul])) := by
  induction' hlen : body.length using Nat.strong_induction_on with n ih generalizing body
  by_cases hmem : nul ∈ body
  · obtain ⟨r, t, rfl, hr⟩ := exists_first_nul hmem
    rw [show r ++ nul :: t ++ [nul, nul] = r ++ nul :: (t ++ [nul, nul]) by simp]
    cases r with
    | nil => simpa [liveRecords_nul] using Framed.stop (t ++ [nul, nul])
    | cons c r =>
      rw [liveRecords_record (List.cons_ne_nil _ _) hr]
      exact .record (List.cons_ne_nil _ _) hr (ih t.length (by simp [← hlen]; omega) t rfl)
  · cases body with
    | nil => simpa [liveRecords_nul] using Framed.stop [nul]
    | cons c b =>
      rw [show c :: b ++ [nul, nul] = (c :: b) ++ nul :: [nul] by simp,
        liveRecords_record (List.cons_ne_nil _ _) hmem, liveRecords_nul]
      exact .record (List.cons_ne_nil _ _) hmem (.stop [])

/-! ## The loop is a fold over the records -/

/-- The records a run of the loop applies, the offset advancing past each record's NUL. -/
def applyRecords : Nat → List CStr → Uevent → Uevent
  | _, [], u => u
  | off, r :: rs, u => applyRecords (off + r.length + 1) rs (applyRecord u off r)

/-- **`parse_event` refines the fold.** On a framed buffer the loop never faults, one iteration
per byte is enough, and its result is the fold of `applyRecord` over the records. -/
theorem parseLoop_framed {s : List Char} {rs : List CStr} (h : Framed s rs) {fuel : Nat}
    (hfuel : s.length ≤ fuel) (off : Nat) (u : Uevent) :
    parseLoop fuel s off u = some (applyRecords off rs u) := by
  induction h generalizing fuel off u with
  | stop rest =>
    obtain ⟨f, rfl⟩ : ∃ f, fuel = f + 1 := ⟨fuel - 1, by simp at hfuel; omega⟩
    exact parseLoop_nul f rest off u
  | @record r rest rs hne hr _ ih =>
    obtain ⟨f, rfl⟩ : ∃ f, fuel = f + 1 := ⟨fuel - 1, by simp at hfuel; omega⟩
    rw [parseLoop_record hne hr, ih (by simp at hfuel; omega)]
    rfl

/-! ## The field law -/

/-- The value a record gives the field of `t`, if it begins with `t`'s tag. -/
def stripTag (t : Tag) (r : CStr) : Option CStr :=
  if t.text <+: r then some (r.drop t.text.length) else none

/-- The value of the last record in `rs` that begins with `t`'s tag. -/
def lastTagged (t : Tag) (rs : List CStr) : Option CStr :=
  (rs.filterMap (stripTag t)).getLast?

/-- The field of `t` after the records: the last tagged value, or the default. -/
def Tag.fieldOf (t : Tag) : Option CStr → FieldVal
  | none => t.default
  | some v => t.value v

theorem lastTagged_cons (t : Tag) (r : CStr) (rs : List CStr) :
    lastTagged t (r :: rs) = (lastTagged t rs).or (stripTag t r) := by
  unfold lastTagged
  cases h : stripTag t r with
  | none => simp [h]
  | some v =>
    rw [List.filterMap_cons_some h, ← List.singleton_append, List.getLast?_append]
    rfl

theorem stripTag_text_append (t t' : Tag) (v : CStr) :
    stripTag t (t'.text ++ v) = if t = t' then some v else none := by
  by_cases h : t = t'
  · subst h
    simp [stripTag]
  · have : ¬ t.text <+: t'.text ++ v := fun hp => h (Tag.eq_of_prefix hp (List.prefix_append _ _))
    simp [stripTag, this, h]

/-- One record, read back through the whole message: the field of its tag takes the record's
value, every other field is unchanged. -/
theorem view_applyRecord_get {msg : List Char} {off : Nat} {r : CStr} {rest : List Char}
    (hmsg : msg.drop off = r ++ nul :: rest) (hr : nul ∉ r) (u : Uevent) (t : Tag) :
    ((applyRecord u off r).view msg).get t =
      match stripTag t r with
      | some v => t.value v
      | none => (u.view msg).get t := by
  unfold applyRecord
  cases ht : recordTag r with
  | none =>
    have : ¬ t.text <+: r := by
      simpa using List.find?_eq_none.mp ht t (Tag.mem_order t)
    simp [stripTag, this]
  | some t₀ =>
    have hp := prefix_of_recordTag ht
    obtain ⟨pre, hpre⟩ := id hp
    have hv : cstr (msg.drop (off + t₀.text.length)) = r.drop t₀.text.length := by
      rw [← List.drop_drop, hmsg, ← hpre, List.append_assoc, List.drop_left, List.drop_left,
        cstr_append_nul (fun h => hr (hpre ▸ List.mem_append_right _ h))]
    rw [Uevent.view_capture_get hv]
    by_cases h : t = t₀
    · subst h
      simp [stripTag, hp]
    · have : ¬ t.text <+: r := fun hp' => h (Tag.eq_of_prefix hp' hp)
      simp [stripTag, this, h]

theorem view_applyRecords_get {s : List Char} {rs : List CStr} (h : Framed s rs) {msg : List Char}
    {off : Nat} (hmsg : msg.drop off = s) (u : Uevent) (t : Tag) :
    ((applyRecords off rs u).view msg).get t =
      match lastTagged t rs with
      | some v => t.value v
      | none => (u.view msg).get t := by
  induction h generalizing off u with
  | stop rest => rfl
  | @record r rest rs hne hr _ ih =>
    rw [applyRecords, ih (drop_past_record hmsg), lastTagged_cons, view_applyRecord_get hmsg hr]
    cases lastTagged t rs <;> rfl

/-- **The field law.** After `parse_event` on any NUL-padded message, each of the ten fields
holds the value of the last live record that begins with its tag, passed through `atoi` for the
numeric ones, and its default when there is none. -/
theorem parseEvent_fields (body : List Char) :
    ∃ u, parseEvent (body ++ [nul, nul]) = some u ∧
      ∀ t, (u.view (body ++ [nul, nul])).get t =
        t.fieldOf (lastTagged t (liveRecords (body ++ [nul, nul]))) := by
  refine ⟨_, parseLoop_framed (framed_padded body) le_rfl 0 Uevent.init, fun t => ?_⟩
  rw [view_applyRecords_get (framed_padded body) (List.drop_zero _)]
  cases lastTagged t _ <;> simp [Tag.fieldOf]

/-! ## Every pointer stays inside the message -/

/-- A live record of a NUL-padded message ends at or before its first padding NUL. -/
theorem record_end_le {body rest : List Char} {r : CStr} {off : Nat} (hne : r ≠ []) (hr : nul ∉ r)
    (h : (body ++ [nul, nul]).drop off = r ++ nul :: rest) : off + r.length ≤ body.length := by
  by_cases hoff : off ≤ body.length
  · rw [List.drop_append_of_le_length hoff] at h
    have := length_le_of_append_nul hr h.symm
    simp at this
    omega
  · have hl := congrArg List.length h
    have := List.length_pos.mpr hne
    simp at hl
    omega

theorem pointers_applyRecords {s : List Char} {rs : List CStr} (h : Framed s rs) {body : List Char}
    {off : Nat} (hmsg : (body ++ [nul, nul]).drop off = s) (u : Uevent) :
    ∀ p ∈ (applyRecords off rs u).pointers, p ∈ u.pointers ∨ p ≤ body.length := by
  induction h generalizing off u with
  | stop rest => exact fun p hp => .inl hp
  | @record r rest rs hne hr _ ih =>
    have hend := record_end_le hne hr hmsg
    intro p hp
    rcases ih (drop_past_record hmsg) _ p hp with hp | hp
    · unfold applyRecord at hp
      cases ht : recordTag r with
      | none => rw [ht] at hp; exact .inl hp
      | some t =>
        rw [ht] at hp
        have hk := (prefix_of_recordTag ht).length_le
        rcases Uevent.mem_pointers_capture hp with hp | rfl
        · exact .inl hp
        · exact .inr (by omega)
    · exact .inr hp

/-- The C string at an offset up to `n` of the padded message ends at a NUL at index `n` or
before. -/
theorem cstr_end_le {body : List Char} {p : Nat} (hp : p ≤ body.length) :
    p + (cstr ((body ++ [nul, nul]).drop p)).length ≤ body.length ∧
      (body ++ [nul, nul])[p + (cstr ((body ++ [nul, nul]).drop p)).length]? = some nul := by
  have hdrop : (body ++ [nul, nul]).drop p = body.drop p ++ nul :: [nul] :=
    List.drop_append_of_le_length hp
  refine ⟨?_, ?_⟩
  · have := cstr_length_le_of_append (b := body.drop p) [nul]
    rw [hdrop]
    simp at this
    omega
  · rw [← List.getElem?_drop, getElem?_cstr_length (by simp [hdrop])]

/-- **`parse_event` stays inside the message.** On the buffer `handle_device_fd` builds (`n`
arbitrary bytes, NUL at `n` and `n+1`) the loop ends without a read past index `n+1` — it never
faults, and any bytes after index `n+1` leave its result unchanged — and every string field it
sets points at an index `≤ n` whose C string ends at a NUL at index `≤ n`. -/
theorem parse_event_within_message (body : List Char) :
    ∃ u, parseEvent (body ++ [nul, nul]) = some u ∧
      (∀ junk, parseEvent (body ++ [nul, nul] ++ junk) = some u) ∧
      ∀ p ∈ u.pointers, p ≤ body.length ∧
        p + (cstr ((body ++ [nul, nul]).drop p)).length ≤ body.length ∧
        (body ++ [nul, nul])[p + (cstr ((body ++ [nul, nul]).drop p)).length]? = some nul := by
  refine ⟨_, parseLoop_framed (framed_padded body) le_rfl 0 Uevent.init,
    fun junk => parseLoop_framed ((framed_padded body).append_right junk) le_rfl 0 Uevent.init,
    fun p hp => ?_⟩
  rcases pointers_applyRecords (framed_padded body) (List.drop_zero _) Uevent.init p hp with h | h
  · simp [Uevent.pointers, Uevent.init] at h
  · exact ⟨h, cstr_end_le h⟩

/-! ## Round trip through a kernel message -/

/-- How a field is written in a kernel message, if at all: a `NULL` field is left out. -/
def FieldVal.render : FieldVal → Option CStr
  | .str s => some s
  | .opt o => o
  | .num n => some (decimal n)

/-- The fields a kernel message can carry: strings without NUL, numbers in the `int` range. -/
def FieldVal.Carried : FieldVal → Prop
  | .str s => nul ∉ s
  | .opt o => ∀ s ∈ o, nul ∉ s
  | .num n => intMin ≤ n ∧ n ≤ intMax

instance : DecidablePred FieldVal.Carried := fun f =>
  match f with
  | .str s => inferInstanceAs (Decidable (nul ∉ s))
  | .opt o => inferInstanceAs (Decidable (∀ s ∈ o, nul ∉ s))
  | .num n => inferInstanceAs (Decidable (intMin ≤ n ∧ n ≤ intMax))

/-- The records after the header of a kernel message for `v`: one `TAG=value` per field, in
source order, none for a `NULL` field. -/
def fieldRecords (v : UeventView) : List CStr :=
  Tag.order.filterMap fun t => (v.get t).render.map (t.text ++ ·)

/-- A kernel uevent message for `v`: the header line, then the field records, each
NUL-terminated. -/
def serialize (header : CStr) (v : UeventView) : List Char :=
  (header :: fieldRecords v).flatMap (· ++ [nul])

theorem liveRecords_flatMap {rs : List CStr} (h : ∀ r ∈ rs, r ≠ [] ∧ nul ∉ r) (junk : List Char) :
    liveRecords (rs.flatMap (· ++ [nul]) ++ nul :: junk) = rs := by
  induction rs with
  | nil => simp [liveRecords_nul]
  | cons r rs ih =>
    obtain ⟨hne, hr⟩ := h r (List.mem_cons_self _ _)
    rw [List.flatMap_cons, List.append_assoc, List.append_assoc, List.singleton_append,
      liveRecords_record hne hr, ih (fun r' hr' => h r' (List.mem_cons_of_mem _ hr'))]

theorem nul_not_mem_render {f : FieldVal} (hf : f.Carried) : ∀ s ∈ f.render, nul ∉ s := by
  cases f with
  | str s => simpa [FieldVal.render] using hf
  | opt o => exact hf
  | num n => simpa [FieldVal.render] using nul_not_mem_decimal n

theorem fieldRecords_wf {v : UeventView} (hv : ∀ t, (v.get t).Carried) :
    ∀ r ∈ fieldRecords v, r ≠ [] ∧ nul ∉ r := by
  intro r hr
  obtain ⟨t, -, s, hs, rfl⟩ : ∃ t ∈ Tag.order, ∃ s ∈ (v.get t).render, t.text ++ s = r := by
    simpa [fieldRecords] using hr
  exact ⟨by simp [Tag.text_ne_nil], by simp [Tag.nul_not_mem_text, nul_not_mem_render (hv t) s hs]⟩

theorem getLast?_filterMap_order {α : Type*} (t : Tag) (x : Option α) :
    (Tag.order.filterMap fun t' => if t = t' then x else none).getLast? = x := by
  cases t <;> cases x <;> rfl

theorem lastTagged_fieldRecords (v : UeventView) (t : Tag) :
    lastTagged t (fieldRecords v) = (v.get t).render := by
  have : (fun t' => ((v.get t').render.map (t'.text ++ ·)).bind (stripTag t)) =
      fun t' => if t = t' then (v.get t).render else none := by
    funext t'
    by_cases h : t = t'
    · subst h
      cases (v.get t).render <;> simp [stripTag_text_append]
    · cases (v.get t').render <;> simp [stripTag_text_append, h]
  rw [lastTagged, fieldRecords, List.filterMap_filterMap, this, getLast?_filterMap_order]

theorem fieldOf_render {v : UeventView} {t : Tag} (hv : (v.get t).Carried) :
    t.fieldOf (v.get t).render = v.get t := by
  cases t <;>
    simp only [UeventView.get, FieldVal.render, FieldVal.Carried, Tag.fieldOf, Tag.value] at hv ⊢
  case partname | devname | modalias => split <;> simp_all [Tag.fieldOf, Tag.value, Tag.default]
  all_goals first | rfl | rw [atoi_decimal hv.1 hv.2]

/-- **Round trip.** `parse_event` reads back every event whose strings hold no NUL and whose
numbers are `int`s, from a message made of a tag-free header line and one record per field. -/
theorem parseEvent_serialize {header : CStr} {v : UeventView} (hne : header ≠ [])
    (hnul : nul ∉ header) (htag : ∀ t : Tag, ¬ t.text <+: header) (hv : ∀ t, (v.get t).Carried) :
    ∃ u, parseEvent (serialize header v ++ [nul, nul]) = some u ∧
      u.view (serialize header v ++ [nul, nul]) = v := by
  obtain ⟨u, hu, hget⟩ := parseEvent_fields (serialize header v)
  refine ⟨u, hu, UeventView.ext_get fun t => ?_⟩
  have hrecs : liveRecords (serialize header v ++ [nul, nul]) = header :: fieldRecords v :=
    liveRecords_flatMap (by
      simpa [hne, hnul] using fieldRecords_wf hv) [nul]
  rw [hget, hrecs, lastTagged_cons, lastTagged_fieldRecords, stripTag, if_neg (htag t),
    Option.or_none, fieldOf_render (hv t)]

/-- **`parse_event`, field by field.** On every NUL-padded message each known field holds the
value of the last live record carrying its tag (through `atoi` for the numbers), or its default;
consequently a message serialised from an event reads back as that event. -/
theorem parse_event_last_tagged_record :
    (∀ body : List Char, ∃ u, parseEvent (body ++ [nul, nul]) = some u ∧
      ∀ t, (u.view (body ++ [nul, nul])).get t =
        t.fieldOf (lastTagged t (liveRecords (body ++ [nul, nul])))) ∧
    (∀ (header : CStr) (v : UeventView), header ≠ [] → nul ∉ header →
      (∀ t : Tag, ¬ t.text <+: header) → (∀ t, (v.get t).Carried) →
      ∃ u, parseEvent (serialize header v ++ [nul, nul]) = some u ∧
        u.view (serialize header v ++ [nul, nul]) = v) :=
  ⟨parseEvent_fields, fun _ _ => parseEvent_serialize⟩

/-- The block event of the spec's first scenario, as the kernel sends it. -/
def scenarioBlockAdd : UeventView where
  action := "add".toList
  path := "/devices/platform/soc.0/by.pci/mmcblk0p3".toList
  subsystem := "block".toList
  firmware := []
  partitionName := some "system".toList
  deviceName := none
  modalias := none
  partitionNum := 3
  major := 179
  minor := 3

theorem parse_event_reads_scenario_block :
    ∃ u, parseEvent (serialize "add@/devices/platform/soc.0/by.pci/mmcblk0p3".toList
        scenarioBlockAdd ++ [nul, nul]) = some u ∧
      u.view (serialize "add@/devices/platform/soc.0/by.pci/mmcblk0p3".toList scenarioBlockAdd ++
        [nul, nul]) = scenarioBlockAdd :=
  parse_event_last_tagged_record.2 _ _ (by decide) (by decide) (by decide) (by decide)

end Ueventd
