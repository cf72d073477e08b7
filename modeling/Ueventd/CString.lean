/-
# Ueventd.CString — C strings as `init/devices.cpp` reads them

A `char *` string is modelled by the characters before its terminating NUL (`CStr`); a buffer
that still holds its NULs (the `msg` of `handle_device_fd`) is a plain `List Char`. This module
gives the libc pieces the device manager leans on: the NUL scan behind `strlen`, `strncmp`
against a literal tag, `atoi`, and the `%d` numeral the kernel prints. A read past the end of a
buffer is a fault (`none`), never a silent default.

It also holds the one list fact that every reverse scan of the source (`list_for_each_reverse`
over `dev_perms` and `platform_names`) rests on: the first hit of a reverse scan is the last
element that satisfies the test.
-/
import Mathlib.Data.Nat.Digits
import Mathlib.Tactic.DeriveFintype

namespace Ueventd

/-- A C string without its terminator. -/
abbrev CStr := List Char

/-- The NUL byte. -/
def nul : Char := '\x00'

/-- The C string that starts at the head of a buffer: everything before its first NUL. -/
def cstr (s : List Char) : CStr := s.takeWhile (· != nul)

theorem cstr_append_nul {r : CStr} (hr : nul ∉ r) (rest : List Char) :
    cstr (r ++ nul :: rest) = r := by
  induction r with
  | nil => simp [cstr]
  | cons c r ih =>
    have hc : c ≠ nul := fun h => hr (h ▸ List.mem_cons_self _ _)
    simpa [cstr, hc] using ih (fun h => hr (List.mem_cons_of_mem _ h))

/-- The terminator of the C string at the head of a buffer that holds a NUL lies inside it. -/
theorem getElem?_cstr_length {s : List Char} (h : nul ∈ s) :
    s[(cstr s).length]? = some nul := by
  induction s with
  | nil => simp at h
  | cons c s ih =>
    by_cases hc : c = nul
    · simp [cstr, hc]
    · have hs : nul ∈ s := (List.mem_cons.mp h).resolve_left (Ne.symm hc)
      simpa [cstr, hc] using ih hs

theorem cstr_length_le_of_append {b : List Char} (y : List Char) :
    (cstr (b ++ nul :: y)).length ≤ b.length := by
  induction b with
  | nil => simp [cstr]
  | cons c b ih =>
    by_cases hc : c = nul
    · simp [cstr, hc]
    · simpa [cstr, hc] using ih

/-- A NUL-free record that ends where a NUL of `b ++ nul :: y` stands is no longer than `b`. -/
theorem length_le_of_append_nul {r b x y : List Char} (hr : nul ∉ r)
    (h : r ++ nul :: x = b ++ nul :: y) : r.length ≤ b.length := by
  induction r generalizing b with
  | nil => simp
  | cons c r ih =>
    cases b with
    | nil =>
      simp only [List.cons_append, List.nil_append, List.cons.injEq] at h
      exact absurd (h.1 ▸ List.mem_cons_self _ _) hr
    | cons d b =>
      simp only [List.cons_append, List.cons.injEq] at h
      simpa using ih (fun hm => hr (List.mem_cons_of_mem _ hm)) h.2

/-! ## `strncmp` against a literal tag -/

/-- `strncmp(s, tag, strlen(tag)) == 0` for a tag without NUL, reading the buffer `s` byte by byte
up to the first mismatch; `none` when the comparison reads past the end of `s`. -/
def strncmpTag : List Char → CStr → Option Bool
  | _, [] => some true
  | [], _ :: _ => none
  | c :: s, t :: ts => if c = t then strncmpTag s ts else some false

/-- On a buffer whose record `r` is NUL-terminated, `strncmp` never faults: the NUL is a mismatch
at the latest, so the comparison is the prefix test on the record. -/
theorem strncmpTag_append_nul {tag r : CStr} (htag : nul ∉ tag) (hr : nul ∉ r)
    (rest : List Char) : strncmpTag (r ++ nul :: rest) tag = some (decide (tag <+: r)) := by
  induction tag generalizing r with
  | nil => simp [strncmpTag]
  | cons t ts ih =>
    have ht : t ≠ nul := fun h => htag (h ▸ List.mem_cons_self _ _)
    cases r with
    | nil => simp [strncmpTag, Ne.symm ht]
    | cons c r =>
      by_cases hct : c = t
      · subst hct
        simpa [strncmpTag] using
          ih (fun h => htag (List.mem_cons_of_mem _ h)) (fun h => hr (List.mem_cons_of_mem _ h))
      · simp [strncmpTag, hct, Ne.symm hct]

/-! ## `atoi` and the `%d` numeral -/

/-- `isspace` in the C locale. -/
def isSpace (c : Char) : Bool :=
  c == ' ' || c == '\t' || c == '\n' || c == '\x0b' || c == '\x0c' || c == '\r'

/-- `strtol`'s accumulation of the leading decimal digits, most significant first. -/
def digitsValue (acc : Nat) : CStr → Nat
  | [] => acc
  | c :: s => if c.isDigit then digitsValue (acc * 10 + (c.toNat - '0'.toNat)) s else acc

/-- `INT_MIN`. -/
def intMin : Int := -2147483648

/-- `INT_MAX`. -/
def intMax : Int := 2147483647

/-- `atoi(s)`, that is `(int) strtol(s, NULL, 10)` on the 32-bit x86 target, where `long` is
`int`: leading blanks, an optional sign, then decimal digits; the value saturates at the `int`
range. -/
def atoi (s : CStr) : Int :=
  match s.dropWhile isSpace with
  | [] => 0
  | c :: t =>
    if c = '-' then max intMin (-(digitsValue 0 t : Int))
    else if c = '+' then min intMax (digitsValue 0 t : Int)
    else min intMax (digitsValue 0 (c :: t) : Int)

/-- The character of a decimal digit `d < 10`. -/
def decDigit (d : Nat) : Char := Char.ofNat ('0'.toNat + d)

/-- The numeral `%u` prints for `n`. -/
def natDigits (n : Nat) : CStr :=
  if n = 0 then ['0'] else (Nat.digits 10 n).reverse.map decDigit

/-- The numeral `%d` prints for `n`. -/
def decimal (n : Int) : CStr :=
  if n < 0 then '-' :: natDigits n.natAbs else natDigits n.natAbs

theorem decDigit_spec : ∀ d < 10,
    (decDigit d).isDigit = true ∧ (decDigit d).toNat - '0'.toNat = d ∧ decDigit d ≠ nul ∧
      decDigit d ≠ '-' ∧ decDigit d ≠ '+' ∧ isSpace (decDigit d) = false := by
  decide

theorem digitsValue_map {L : List Nat} (hL : ∀ d ∈ L, d < 10) (acc : Nat) :
    digitsValue acc (L.map decDigit) = L.foldl (fun a d => a * 10 + d) acc := by
  induction L generalizing acc with
  | nil => rfl
  | cons d L ih =>
    obtain ⟨hdig, hval, -⟩ := decDigit_spec d (hL d (List.mem_cons_self _ _))
    simp only [List.map_cons, digitsValue, hdig, if_true, hval, List.foldl_cons]
    exact ih (fun x hx => hL x (List.mem_cons_of_mem _ hx)) _

theorem foldr_digit_eq_ofDigits (L : List Nat) :
    L.foldr (fun d a => a * 10 + d) 0 = Nat.ofDigits 10 L := by
  induction L with
  | nil => rfl
  | cons d L ih => simp only [List.foldr_cons, ih, Nat.ofDigits_cons]; omega

theorem natDigits_spec (n : Nat) :
    ∃ c t, natDigits n = c :: t ∧ nul ∉ c :: t ∧ c ≠ '-' ∧ c ≠ '+' ∧
      isSpace c = false ∧ digitsValue 0 (natDigits n) = n := by
  by_cases hn : n = 0
  · subst hn
    exact ⟨'0', [], rfl, by decide, by decide, by decide, by decide, rfl⟩
  · have hlt : ∀ d ∈ (Nat.digits 10 n).reverse, d < 10 := fun d hd =>
      Nat.digits_lt_base (by norm_num) (List.mem_reverse.mp hd)
    have hval : digitsValue 0 (natDigits n) = n := by
      rw [natDigits, if_neg hn, digitsValue_map hlt, List.foldl_reverse, foldr_digit_eq_ofDigits,
        Nat.ofDigits_digits]
    obtain ⟨d, L, hdL⟩ := List.exists_cons_of_ne_nil
      (List.reverse_ne_nil_iff.mpr (Nat.digits_ne_nil_iff_ne_zero.mpr hn))
    obtain ⟨-, -, -, hm, hp, hs⟩ := decDigit_spec d (hlt d (hdL ▸ List.mem_cons_self _ _))
    refine ⟨decDigit d, L.map decDigit, by simp [natDigits, hn, hdL], ?_, hm, hp, hs, hval⟩
    intro hx
    obtain ⟨e, he, hex⟩ := List.mem_map.mp (show nul ∈ (d :: L).map decDigit from hx)
    exact (decDigit_spec e (hlt e (hdL ▸ he))).2.2.1 hex

theorem digitChar_eq_decDigit : ∀ d < 10, Nat.digitChar d = decDigit d := by decide

/-- Core's printer of numerals emits the digits of `n`, most significant first, in front of what
it has already written. -/
theorem toDigitsCore_ten {fuel n : Nat} (acc : List Char) (hn : 0 < n) (hfuel : n < fuel) :
    Nat.toDigitsCore 10 fuel n acc = (Nat.digits 10 n).reverse.map decDigit ++ acc := by
  induction fuel generalizing n acc with
  | zero => omega
  | succ fuel ih =>
    rw [Nat.toDigitsCore, Nat.digits_def' (by norm_num) hn, List.reverse_cons, List.map_append,
      List.append_assoc, digitChar_eq_decDigit _ (Nat.mod_lt _ (by norm_num))]
    split_ifs with h
    · rw [h, Nat.digits_zero]; rfl
    · exact ih _ (by omega) (by omega)

/-- The numeral `%u` prints is core's decimal numeral. -/
theorem natDigits_eq_toDigits (n : Nat) : natDigits n = Nat.toDigits 10 n := by
  unfold natDigits Nat.toDigits
  split_ifs with hn
  · subst hn; rfl
  · rw [toDigitsCore_ten [] (Nat.pos_of_ne_zero hn) (Nat.lt_succ_self n), List.append_nil]

theorem nul_not_mem_decimal (n : Int) : nul ∉ decimal n := by
  obtain ⟨c, t, h, hnul, -⟩ := natDigits_spec n.natAbs
  unfold decimal
  split
  · simp only [h, List.mem_cons, not_or]
    exact ⟨by decide, by simpa using hnul⟩
  · rwa [h]

/-- `atoi` reads back every `int` that `%d` prints. -/
theorem atoi_decimal {n : Int} (hlo : intMin ≤ n) (hhi : n ≤ intMax) : atoi (decimal n) = n := by
  obtain ⟨c, t, h, -, hm, hp, hs, hval⟩ := natDigits_spec n.natAbs
  unfold decimal atoi
  by_cases hneg : n < 0
  · simp only [hneg, if_true, List.dropWhile_cons, show isSpace '-' = false by decide,
      Bool.false_eq_true, if_false]
    rw [h] at hval ⊢
    simp only [hval]
    omega
  · simp only [hneg, if_false, h, List.dropWhile_cons, hs, Bool.false_eq_true, hm, hp]
    rw [h] at hval
    simp only [hval]
    omega

/-! ## `snprintf`, `strchr` and `strrchr` -/

/-- What `snprintf(buf, size, …)` leaves in a buffer of `size` bytes when the formatted string
is `s`: its first `size - 1` characters. The call returns `s.length`; a caller that does not
compare it with `size` cannot tell a truncated path from a whole one. -/
def snprintf (size : Nat) (s : CStr) : CStr := s.take (size - 1)

theorem snprintf_of_lt {size : Nat} {s : CStr} (h : s.length < size) : snprintf size s = s :=
  List.take_of_length_le (by omega)

/-- `strchr(s, c)`: the index of the first `c` in `s`. -/
def strchr (c : Char) : CStr → Option Nat
  | [] => none
  | x :: s => if x = c then some 0 else (strchr c s).map (· + 1)

theorem strchr_append_cons {c : Char} {seg : CStr} (h : c ∉ seg) (rest : CStr) :
    strchr c (seg ++ c :: rest) = some seg.length := by
  induction seg with
  | nil => simp [strchr]
  | cons x seg ih =>
    have hx : x ≠ c := fun hx => h (hx ▸ List.mem_cons_self _ _)
    simp [strchr, hx, ih fun h' => h (List.mem_cons_of_mem _ h')]

/-- `strchr` stops at the first `c`: the segment before it is free of `c`. -/
theorem strchr_eq_some_iff {c : Char} {s : CStr} {i : Nat} :
    strchr c s = some i ↔ ∃ seg rest, s = seg ++ c :: rest ∧ c ∉ seg ∧ seg.length = i := by
  refine ⟨fun h => ?_, by rintro ⟨seg, rest, rfl, hseg, rfl⟩; exact strchr_append_cons hseg rest⟩
  induction s generalizing i with
  | nil => simp [strchr] at h
  | cons x s ih =>
    by_cases hx : x = c
    · subst hx
      simp only [strchr, if_true, Option.some.injEq] at h
      exact ⟨[], s, rfl, List.not_mem_nil _, h⟩
    · simp only [strchr, hx, if_false, Option.map_eq_some'] at h
      obtain ⟨j, hj, rfl⟩ := h
      obtain ⟨seg, rest, rfl, hseg, rfl⟩ := ih hj
      exact ⟨x :: seg, rest, rfl, by simp [hseg, Ne.symm hx], rfl⟩

theorem strchr_eq_none {c : Char} {s : CStr} : strchr c s = none ↔ c ∉ s := by
  induction s with
  | nil => simp [strchr]
  | cons x s ih =>
    by_cases hx : x = c
    · simp [strchr, hx]
    · simp [strchr, hx, ih, Ne.symm hx]

/-- `strchr(s + i, c)`, as an index of `s`. -/
def strchrFrom (s : CStr) (i : Nat) (c : Char) : Option Nat :=
  (strchr c (s.drop i)).map (i + ·)

/-- What follows the last `c` of `s`: `strrchr(s, c) + 1`, or all of `s` when `c` does not
occur. -/
def afterLast (c : Char) (s : CStr) : CStr := (s.reverse.takeWhile (· != c)).reverse

theorem afterLast_append_cons {c : Char} {seg : CStr} (h : c ∉ seg) (dir : CStr) :
    afterLast c (dir ++ c :: seg) = seg := by
  have hw : ∀ x ∈ seg.reverse, (x != c) = true := fun x hx => by
    rw [bne_iff_ne]
    rintro rfl
    exact h (List.mem_reverse.mp hx)
  simp [afterLast, List.takeWhile_append_of_pos hw]

/-! ## `fnmatch` -/

/-- `fnmatch(pattern, string, flags) == 0`, the flag `FNM_PATHNAME` given as a Boolean. The
model takes it as a parameter: what is proved holds whatever `fnmatch` decides. -/
abbrev Fnmatch := Bool → CStr → CStr → Bool

/-- `fnmatch` on patterns without `*`, `?`, `[` or a backslash, which match only themselves. -/
def literalFnmatch : Fnmatch := fun _ pattern s => pattern == s

/-! ## Reverse scans -/

/-- **A reverse scan finds the last hit.** `list_for_each_reverse … return` stops at `b` exactly
when `b` passes the test and no element after it does. -/
theorem find?_reverse_eq_some {α : Type*} {p : α → Bool} {l : List α} {b : α} :
    l.reverse.find? p = some b ↔
      p b ∧ ∃ pre post, l = pre ++ b :: post ∧ ∀ a ∈ post, p a = false := by
  rw [List.find?_eq_some]
  constructor
  · rintro ⟨hb, as, bs, h, has⟩
    refine ⟨hb, bs.reverse, as.reverse, ?_, fun a ha => by simpa using has a (by simpa using ha)⟩
    rw [← List.reverse_reverse l, h]
    simp
  · rintro ⟨hb, pre, post, rfl, hpost⟩
    exact ⟨hb, post.reverse, pre.reverse, by simp, fun a ha => by simpa using hpost a (by simpa using ha)⟩

/-- The last hit of a test comes no earlier than any other hit. -/
theorem mem_cons_of_last_hit {α : Type*} {p : α → Bool} {pre post pre' post' : List α} {b b' : α}
    (h : pre ++ b :: post = pre' ++ b' :: post') (hpost : ∀ a ∈ post, p a = false)
    (hb' : p b' = true) : b ∈ b' :: post' := by
  rcases List.append_eq_append_iff.mp h with ⟨a, rfl, hrest⟩ | ⟨c, rfl, hrest⟩
  · rcases a with _ | ⟨x, a⟩
    · simp_all
    · simp only [List.cons_append, List.cons.injEq] at hrest
      have : b' ∈ post := by rw [hrest.2]; simp
      simp [hpost b' this] at hb'
  · rcases c with _ | ⟨x, c⟩
    · simp_all
    · simp only [List.cons_append, List.cons.injEq] at hrest
      simp [hrest.2]

end Ueventd
