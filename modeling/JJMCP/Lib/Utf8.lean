import Mathlib.Data.List.Infix

namespace JJMCP.Lib.Utf8

def isContinuation (c : UInt8) : Bool := c &&& 0xc0 == 0x80

def encode (cs : List Char) : List UInt8 := cs.flatMap String.utf8EncodeChar

def Valid (t : List UInt8) : Prop := t.toByteArray.IsValidUTF8

instance (t : List UInt8) : Decidable (Valid t) := inferInstanceAs (Decidable t.toByteArray.IsValidUTF8)

/-- An end of the text, or a place where a character begins. -/
def Boundary (t : List UInt8) (p : Nat) : Prop :=
  p ≤ t.length ∧ ∀ c, t[p]? = some c → isContinuation c = false

theorem toByteArray_encode (cs : List Char) : (encode cs).toByteArray = cs.utf8Encode := rfl

theorem valid_iff {t : List UInt8} : Valid t ↔ ∃ cs, t = encode cs := by
  constructor
  · rintro ⟨cs, h⟩
    refine ⟨cs, ?_⟩
    rw [← toByteArray_encode] at h
    have hdata := congrArg (fun b => b.data.toList) h
    simpa using hdata
  · rintro ⟨cs, rfl⟩
    exact ByteArray.isValidUTF8_utf8Encode

theorem valid_nil : Valid [] := valid_iff.mpr ⟨[], rfl⟩

theorem Valid.append {s t : List UInt8} (hs : Valid s) (ht : Valid t) : Valid (s ++ t) := by
  obtain ⟨cs, rfl⟩ := valid_iff.mp hs
  obtain ⟨ds, rfl⟩ := valid_iff.mp ht
  exact valid_iff.mpr ⟨cs ++ ds, by simp [encode]⟩

theorem Valid.of_append {s t : List UInt8} (hs : Valid s) (h : Valid (s ++ t)) : Valid t := by
  obtain ⟨cs, rfl⟩ := valid_iff.mp hs
  clear hs
  induction cs with
  | nil => exact h
  | cons c cs ih =>
      refine ih ?_
      have hc : (encode (c :: cs) ++ t).toByteArray = [c].utf8Encode ++ (encode cs ++ t).toByteArray := by
        simp [encode, List.utf8Encode_singleton]
      rw [Valid, hc, ByteArray.isValidUTF8_utf8Encode_singleton_append_iff] at h
      exact h

theorem tail_continuation (n : Nat) : isContinuation (UInt8.ofNat (n % 0x40 + 0x80)) = true := by
  have hall : ∀ k : Fin 64, isContinuation (UInt8.ofNat (k.val + 0x80)) = true := by decide
  exact hall ⟨n % 64, Nat.mod_lt _ (by decide)⟩

/-- A character is one byte that is no continuation and at most three that are. -/
theorem utf8EncodeChar_cons (c : Char) : ∃ b bs, String.utf8EncodeChar c = b :: bs ∧ isContinuation b = false ∧
    (∀ x ∈ bs, isContinuation x = true) ∧ bs.length ≤ 3 := by
  have one : ∀ k : Fin 128, isContinuation (UInt8.ofNat k.val) = false := by decide
  have two : ∀ k : Fin 32, isContinuation (UInt8.ofNat (k.val + 0xc0)) = false := by decide
  have three : ∀ k : Fin 16, isContinuation (UInt8.ofNat (k.val + 0xe0)) = false := by decide
  have four : ∀ k : Fin 8, isContinuation (UInt8.ofNat (k.val + 0xf0)) = false := by decide
  have htail := tail_continuation
  fun_cases String.utf8EncodeChar with
  | case1 v h => exact ⟨_, _, rfl, one ⟨v, by omega⟩, by simp, by simp⟩
  | case2 v h => exact ⟨_, _, rfl, two ⟨_, Nat.mod_lt _ (by decide)⟩, by
      simp only [List.forall_mem_cons, htail, List.not_mem_nil, false_implies, implies_true, and_self], by simp⟩
  | case3 v h => exact ⟨_, _, rfl, three ⟨_, Nat.mod_lt _ (by decide)⟩, by
      simp only [List.forall_mem_cons, htail, List.not_mem_nil, false_implies, implies_true, and_self], by simp⟩
  | case4 v h => exact ⟨_, _, rfl, four ⟨_, Nat.mod_lt _ (by decide)⟩, by
      simp only [List.forall_mem_cons, htail, List.not_mem_nil, false_implies, implies_true, and_self], by simp⟩

theorem encode_cons (c : Char) (cs : List Char) : encode (c :: cs) = String.utf8EncodeChar c ++ encode cs := by
  simp [encode]

theorem boundary_zero {t : List UInt8} (h : Valid t) : Boundary t 0 := by
  obtain ⟨cs, rfl⟩ := valid_iff.mp h
  refine ⟨Nat.zero_le _, fun x hx => ?_⟩
  cases cs with
  | nil => simp [encode] at hx
  | cons c cs =>
      obtain ⟨b, bs, hc, hb, _⟩ := utf8EncodeChar_cons c
      rw [encode_cons, hc] at hx
      simp only [List.cons_append, List.getElem?_cons_zero, Option.some.injEq] at hx
      rw [← hx, hb]

theorem boundary_append (x y : List UInt8) (q : Nat) : Boundary (x ++ y) (x.length + q) ↔ Boundary y q := by
  simp [Boundary, List.getElem?_append_right]

/-- No boundary stands inside a character. -/
theorem boundary_cons {c : Char} {t : List UInt8} {p : Nat} (h : Boundary (String.utf8EncodeChar c ++ t) p) :
    p = 0 ∨ ∃ q, p = (String.utf8EncodeChar c).length + q ∧ Boundary t q := by
  obtain ⟨b, bs, hc, _, hbs, _⟩ := utf8EncodeChar_cons c
  by_cases hlt : p < (String.utf8EncodeChar c).length
  · cases p with
    | zero => exact .inl rfl
    | succ p =>
        rw [hc, List.length_cons] at hlt
        have hbyte := h.2 bs[p] (by
          rw [hc, List.cons_append, List.getElem?_cons_succ, List.getElem?_append_left (by omega)]
          exact List.getElem?_eq_getElem _)
        rw [hbs _ (List.getElem_mem _)] at hbyte
        exact absurd hbyte (by decide)
  · obtain ⟨q, rfl⟩ := Nat.exists_eq_add_of_le (Nat.le_of_not_lt hlt)
    exact .inr ⟨q, rfl, (boundary_append _ _ q).mp h⟩

theorem Valid.cut {t : List UInt8} (h : Valid t) {p : Nat} (hp : Boundary t p) :
    Valid (t.take p) ∧ Valid (t.drop p) := by
  obtain ⟨cs, rfl⟩ := valid_iff.mp h
  clear h
  induction cs generalizing p with
  | nil => simpa [encode] using valid_nil
  | cons c cs ih =>
      rw [encode_cons] at hp ⊢
      rcases boundary_cons hp with rfl | ⟨q, rfl, hq⟩
      · exact ⟨valid_nil, valid_iff.mpr ⟨c :: cs, (encode_cons c cs).symm⟩⟩
      · obtain ⟨htake, hdrop⟩ := ih hq
        have hc : Valid (String.utf8EncodeChar c) := valid_iff.mpr ⟨[c], by simp [encode]⟩
        rw [List.take_length_add_append, List.drop_length_add_append]
        exact ⟨hc.append htake, hdrop⟩

/-- A character has at most four bytes. -/
theorem Valid.near {t : List UInt8} (h : Valid t) {p : Nat} (hp : p ≤ t.length) :
    ∃ q, p ≤ q ∧ q ≤ p + 3 ∧ Boundary t q := by
  obtain ⟨cs, rfl⟩ := valid_iff.mp h
  clear h
  induction cs generalizing p with
  | nil =>
      obtain rfl : p = 0 := Nat.le_zero.mp hp
      exact ⟨0, Nat.le_refl _, Nat.zero_le _, boundary_zero valid_nil⟩
  | cons c cs ih =>
      obtain ⟨b, bs, hc, _, _, hlen⟩ := utf8EncodeChar_cons c
      have hsize := congrArg List.length hc
      rw [List.length_cons] at hsize
      have hall : Valid (encode (c :: cs)) := valid_iff.mpr ⟨_, rfl⟩
      rw [encode_cons] at hp hall ⊢
      by_cases hlt : p < (String.utf8EncodeChar c).length
      · cases p with
        | zero => exact ⟨0, Nat.le_refl _, Nat.zero_le _, boundary_zero hall⟩
        | succ p =>
            refine ⟨(String.utf8EncodeChar c).length + 0, by omega, by omega, ?_⟩
            exact (boundary_append _ _ 0).mpr (boundary_zero (valid_iff.mpr ⟨cs, rfl⟩))
      · obtain ⟨r, rfl⟩ := Nat.exists_eq_add_of_le (Nat.le_of_not_lt hlt)
        obtain ⟨q, hle, hle', hq⟩ := @ih r (by rw [List.length_append] at hp; omega)
        exact ⟨(String.utf8EncodeChar c).length + q, by omega, by omega, (boundary_append _ _ q).mpr hq⟩

theorem utf8EncodeChar_ascii {c : UInt8} (h : c < 128) : String.utf8EncodeChar (Char.ofNat c.toNat) = [c] := by
  have hall : ∀ k : Fin 128, String.utf8EncodeChar (Char.ofNat k.val) = [UInt8.ofNat k.val] := by decide
  have hc := hall ⟨c.toNat, h⟩
  rwa [UInt8.ofNat_toNat] at hc

theorem valid_ascii {t : List UInt8} (h : ∀ c ∈ t, c < 128) : Valid t := by
  refine valid_iff.mpr ⟨t.map fun c => Char.ofNat c.toNat, ?_⟩
  induction t with
  | nil => rfl
  | cons c cs ih =>
      rw [List.map_cons, encode_cons, utf8EncodeChar_ascii (h c (by simp)), ← ih fun x hx => h x (List.mem_cons_of_mem c hx)]
      rfl

theorem takeWhile_length_spec {α : Type} (p : α → Bool) (t : List α) :
    (∀ c, t[(t.takeWhile p).length]? = some c → p c = false) ∧
      ∀ i < (t.takeWhile p).length, ∃ c, t[i]? = some c ∧ p c = true := by
  induction t with
  | nil => simp
  | cons x xs ih =>
      by_cases hx : p x = true
      · rw [List.takeWhile_cons_of_pos hx, List.length_cons]
        refine ⟨ih.1, fun i hi => ?_⟩
        cases i with
        | zero => exact ⟨x, rfl, hx⟩
        | succ i => exact ih.2 i (Nat.lt_of_succ_lt_succ hi)
      · rw [List.takeWhile_cons_of_neg hx]
        refine ⟨fun c hc => ?_, fun i hi => absurd hi (Nat.not_lt_zero i)⟩
        obtain rfl := Option.some.inj hc
        simpa using hx

/-- The cut at or above an offset: the continuation bytes there are passed over. -/
theorem next_boundary {t : List UInt8} {start : Nat} (hs : start ≤ t.length) :
    Boundary t (start + ((t.drop start).takeWhile isContinuation).length) ∧
      ∀ q, start ≤ q → Boundary t q → start + ((t.drop start).takeWhile isContinuation).length ≤ q := by
  obtain ⟨hstop, hskip⟩ := takeWhile_length_spec isContinuation (t.drop start)
  have hle := (List.takeWhile_prefix (l := t.drop start) isContinuation).length_le
  rw [List.length_drop] at hle
  constructor
  · refine ⟨by omega, fun c hc => hstop c ?_⟩
    rwa [List.getElem?_drop]
  · intro q hq hb
    by_contra hlt
    obtain ⟨c, hc, hcont⟩ := hskip (q - start) (by omega)
    rw [List.getElem?_drop, show start + (q - start) = q by omega] at hc
    rw [hb.2 c hc] at hcont
    exact absurd hcont (by decide)

theorem next_boundary_unique {t : List UInt8} {start p : Nat} (hp : Boundary t p) (hle : start ≤ p)
    (hmin : ∀ q, start ≤ q → Boundary t q → p ≤ q) :
    start + ((t.drop start).takeWhile isContinuation).length = p := by
  obtain ⟨hb, hleast⟩ := next_boundary (hle.trans hp.1)
  exact Nat.le_antisymm (hleast p hle hp) (hmin _ (Nat.le_add_right _ _) hb)

theorem Boundary.extend {s : List UInt8} {p : Nat} (t : List UInt8) (h : Boundary s p) (hlt : p < s.length) :
    Boundary (s ++ t) p := by
  refine ⟨?_, fun c hc => h.2 c ?_⟩
  · rw [List.length_append]
    omega
  · rwa [List.getElem?_append_left hlt] at hc

theorem Boundary.restrict {s t : List UInt8} {p : Nat} (h : Boundary (s ++ t) p) (hlt : p < s.length) :
    Boundary s p := by
  refine ⟨Nat.le_of_lt hlt, fun c hc => h.2 c ?_⟩
  rwa [List.getElem?_append_left hlt]

end JJMCP.Lib.Utf8
