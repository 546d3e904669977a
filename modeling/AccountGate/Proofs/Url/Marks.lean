import AccountGate.Proofs.Text.Utf8
import AccountGate.Url.Basic
import Mathlib.Data.Option.Basic

/-!
The marks between the parts of a URL. Main statement: an authority that was read has none of those that
end it, so that in the text of its URL it ends where the path begins.
-/

namespace AccountGate.Url

open Text (bytesOf forall_byte)

variable {cs ds : List Char} {c : Char}

/-- No mark that ends a path. -/
def Unmarked (cs : List Char) : Prop := ∀ c ∈ cs, isPathEnd c = false

instance : Decidable (Unmarked cs) :=
  decidable_of_iff (cs.all fun c => !isPathEnd c) (by simp [Unmarked])

theorem unmarked_nil : Unmarked [] := fun _ hc => absurd hc List.not_mem_nil

theorem unmarked_cons_iff : Unmarked (c :: cs) ↔ isPathEnd c = false ∧ Unmarked cs :=
  List.forall_mem_cons

theorem unmarked_append_iff : Unmarked (cs ++ ds) ↔ Unmarked cs ∧ Unmarked ds :=
  List.forall_mem_append

/-- What an authority or a segment of a path ends with. -/
def isDelimiter (c : Char) : Bool := c == '/' || isPathEnd c

def Undelimited (cs : List Char) : Prop := ∀ c ∈ cs, isDelimiter c = false

instance : Decidable (Undelimited cs) :=
  decidable_of_iff (cs.all fun c => !isDelimiter c) (by simp [Undelimited])

theorem undelimited_nil : Undelimited [] := fun _ hc => absurd hc List.not_mem_nil

theorem undelimited_cons_iff : Undelimited (c :: cs) ↔ isDelimiter c = false ∧ Undelimited cs :=
  List.forall_mem_cons

theorem undelimited_append_iff : Undelimited (cs ++ ds) ↔ Undelimited cs ∧ Undelimited ds :=
  List.forall_mem_append

theorem Undelimited.mono (h : Undelimited ds) (hsub : ∀ c ∈ cs, c ∈ ds) : Undelimited cs :=
  fun c hc => h c (hsub c hc)

theorem Undelimited.unmarked (h : Undelimited cs) : Unmarked cs :=
  fun c hc => (Bool.or_eq_false_iff.mp (h c hc)).2

theorem Undelimited.slash_notMem (h : Undelimited cs) : '/' ∉ cs :=
  fun hc => absurd (h '/' hc) (by decide)

theorem eq_of_isDelimiter (h : isDelimiter c = true) : c = '/' ∨ c = '?' ∨ c = '#' := by
  simpa [isDelimiter, isPathEnd] using h

section Escapes

variable {set : EncodeSet}

/-- A delimiter that is written stands for itself. -/
theorem mem_of_mem_encode (hc : isDelimiter c = true) (h : c ∈ encode set cs) :
    c ∈ cs ∧ set (.ofNat c.toNat) = false := by
  have hescape : ∀ b, Undelimited (escape b) :=
    forall_byte (P := fun b => Undelimited (escape b)) (by decide +kernel)
  have hself : ∀ b, isDelimiter (Char.ofNat b.toNat) = true →
      b.toNat < 128 ∧ UInt8.ofNat (Char.ofNat b.toNat).toNat = b :=
    forall_byte (P := fun b => isDelimiter (Char.ofNat b.toNat) = true →
      b.toNat < 128 ∧ UInt8.ofNat (Char.ofNat b.toNat).toNat = b) (by decide +kernel)
  rw [encode, List.mem_flatMap] at h
  obtain ⟨b, hb, h⟩ := h
  rw [encodeByte] at h
  split at h
  · exact absurd hc (by simp [hescape b c h])
  · next hset =>
    obtain rfl := List.mem_singleton.mp h
    obtain ⟨hsmall, hbyte⟩ := hself b hc
    obtain ⟨d, hd, hmem⟩ := List.mem_flatMap.mp hb
    rw [← Text.toNat_of_mem_encodeChar hmem hsmall, Char.ofNat_toNat] at hbyte ⊢
    exact ⟨hd, by rw [hbyte]; simpa using hset⟩

theorem undelimited_encode (hslash : set 47 = true ∨ '/' ∉ cs) (hquery : set 63 = true)
    (hfragment : set 35 = true) : Undelimited (encode set cs) := by
  intro c hc
  refine Bool.eq_false_iff.mpr fun hend => ?_
  obtain ⟨hmem, hset⟩ := mem_of_mem_encode hend hc
  rcases eq_of_isDelimiter hend with rfl | rfl | rfl
  · exact hslash.elim (fun h => Bool.false_ne_true (hset.symm.trans h)) fun h => h hmem
  · exact Bool.false_ne_true (hset.symm.trans hquery)
  · exact Bool.false_ne_true (hset.symm.trans hfragment)

theorem Undelimited.encode (h : Undelimited cs) (set : EncodeSet) :
    Undelimited (Url.encode set cs) := by
  intro c hc
  refine Bool.eq_false_iff.mpr fun hend => ?_
  exact absurd hend (by simp [h c (mem_of_mem_encode hend hc).1])

theorem Unmarked.encode (h : Unmarked cs) (set : EncodeSet) : Unmarked (Url.encode set cs) := by
  intro c hc
  refine Bool.eq_false_iff.mpr fun hend => ?_
  have hdelimiter : isDelimiter c = true := by simp [isDelimiter, hend]
  exact absurd hend (by simp [h c (mem_of_mem_encode hdelimiter hc).1])

end Escapes

section Hosts

theorem undelimited_toDigits {base : Nat} (hpos : 1 < base) (hbase : base ≤ 16) (n : Nat) :
    Undelimited (Nat.toDigits base n) := by
  have hdigit : ∀ d < 16, isDelimiter (Nat.digitChar d) = false := by decide
  induction n using Nat.strongRecOn with
  | ind n ih =>
    by_cases hn : n < base
    · rw [Nat.toDigits_of_lt_base hn]
      exact undelimited_cons_iff.mpr ⟨hdigit n (by omega), undelimited_nil⟩
    · rw [Nat.toDigits_of_base_le hpos (by omega), undelimited_append_iff]
      refine ⟨ih _ (Nat.div_lt_self (by omega) hpos), ?_⟩
      refine undelimited_cons_iff.mpr ⟨hdigit _ ?_, undelimited_nil⟩
      exact Nat.lt_of_lt_of_le (Nat.mod_lt _ (by omega)) hbase

theorem undelimited_intercalate {sep : List Char} {xs : List (List Char)} (hsep : Undelimited sep)
    (h : ∀ x ∈ xs, Undelimited x) : Undelimited (sep.intercalate xs) := by
  induction xs with
  | nil => exact undelimited_nil
  | cons x xs ih =>
    obtain ⟨hx, hxs⟩ := List.forall_mem_cons.mp h
    cases xs with
    | nil => simpa [List.intercalate] using hx
    | cons y ys =>
      have hcons : sep.intercalate (x :: y :: ys) = x ++ (sep ++ sep.intercalate (y :: ys)) := by
        simp [List.intercalate]
      rw [hcons, undelimited_append_iff, undelimited_append_iff]
      exact ⟨hx, hsep, ih hxs⟩

theorem undelimited_ipv4 (address : Nat) : Undelimited (Ipv4.render address) := by
  rw [Ipv4.render, String.toList_intercalate]
  refine undelimited_intercalate (by decide) fun x hx => ?_
  obtain ⟨text, htext, rfl⟩ := List.mem_map.mp hx
  obtain ⟨w, -, rfl⟩ := List.mem_map.mp htext
  have hdigits : (toString (address / w % 256)).toList = Nat.toDigits 10 (address / w % 256) := by
    simp
  rw [hdigits]
  exact undelimited_toDigits (by decide) (by decide) _

theorem undelimited_ipv6 (words : List Nat) : Undelimited (Ipv6.render words) := by
  have hjoined (words : List Nat) : Undelimited (Ipv6.joined words).toList := by
    rw [Ipv6.joined, String.toList_intercalate]
    refine undelimited_intercalate (by decide) fun x hx => ?_
    obtain ⟨text, htext, rfl⟩ := List.mem_map.mp hx
    obtain ⟨w, -, rfl⟩ := List.mem_map.mp htext
    rw [String.toList_ofList]
    exact undelimited_toDigits (by decide) (by decide) w
  rw [Ipv6.render]
  split
  · exact hjoined words
  · rw [String.toList_append, String.toList_append, undelimited_append_iff, undelimited_append_iff]
    exact ⟨⟨hjoined _, by decide⟩, hjoined _⟩

end Hosts

section Domains

open Domain Punycode

theorem isDelimiter_digit {n : Nat} (h : n < 36) : isDelimiter (digit n) = false := by
  have hall : ∀ n < 36, isDelimiter (digit n) = false := by decide
  exact hall n h

theorem threshold_le (k bias : Nat) : threshold k bias ≤ 26 := by
  rw [threshold]
  split
  · decide
  · split <;> omega

theorem undelimited_writeDigits (bias k q : Nat) : Undelimited (writeDigits bias k q) := by
  -- No threshold is above 26, so that each digit is below 36.
  fun_induction writeDigits bias k q with
  | case1 k q t h =>
    have ht : t ≤ 26 := threshold_le k bias
    exact undelimited_cons_iff.mpr ⟨isDelimiter_digit (by omega), undelimited_nil⟩
  | case2 k q t h ih =>
    have ht : t ≤ 26 := threshold_le k bias
    have hmod : (q - t) % (36 - t) < 36 - t := Nat.mod_lt _ (by omega)
    exact undelimited_cons_iff.mpr ⟨isDelimiter_digit (by omega), ih⟩

theorem undelimited_writeChar {basic point : Nat} {w : Writer} (h : Undelimited w.out) (c : Char) :
    Undelimited (writeChar basic point w c).out := by
  rw [writeChar]
  split
  · exact h
  · split
    · exact undelimited_append_iff.mpr ⟨h, undelimited_writeDigits _ _ _⟩
    · exact h

theorem undelimited_writePoint {basic : Nat} {label : List Char} {s : Writer × Nat}
    (h : Undelimited s.1.out) (point : Nat) : Undelimited (writePoint basic label s point).1.out := by
  have hfold (cs : List Char) (w : Writer) (hw : Undelimited w.out) :
      Undelimited (cs.foldl (writeChar basic point) w).out := by
    induction cs generalizing w with
    | nil => exact hw
    | cons c cs ih => exact ih _ (undelimited_writeChar hw c)
  exact hfold label _ h

theorem undelimited_punycode {label : List Char} (h : Undelimited label) :
    Undelimited (Punycode.encode label) := by
  have hfold (points : List Nat) (s : Writer × Nat) (hs : Undelimited s.1.out) (basic : Nat) :
      Undelimited (points.foldl (writePoint basic label) s).1.out := by
    induction points generalizing s with
    | nil => exact hs
    | cons point points ih => exact ih _ (undelimited_writePoint hs point)
  refine hfold _ _ ?_ _
  have hbasic : Undelimited (label.filter fun c => c.toNat < 128) :=
    h.mono fun c hc => (List.mem_filter.mp hc).1
  show Undelimited (ite _ _ _)
  split
  · exact undelimited_nil
  · exact undelimited_append_iff.mpr ⟨hbasic, by decide⟩

theorem undelimited_of_mem_pieces {sep : Char} {label : List Char} (h : Undelimited cs)
    (hlabel : label ∈ Text.pieces sep cs) : Undelimited label := by
  induction cs generalizing label with
  | nil =>
    rw [List.mem_singleton.mp hlabel]
    exact undelimited_nil
  | cons c cs ih =>
    obtain ⟨hc, hcs⟩ := undelimited_cons_iff.mp h
    rw [Text.pieces] at hlabel
    split at hlabel
    · rcases List.mem_cons.mp hlabel with rfl | hlabel
      · exact undelimited_nil
      · exact ih hcs hlabel
    · split at hlabel
      · next hnil => exact absurd hnil (Text.pieces_ne_nil _ _)
      · next first others hpieces =>
        rcases List.mem_cons.mp hlabel with rfl | hlabel
        · exact undelimited_cons_iff.mpr ⟨hc, ih hcs (hpieces ▸ List.mem_cons_self)⟩
        · exact ih hcs (hpieces ▸ List.mem_cons_of_mem _ hlabel)

theorem undelimited_join {labels : List (List Char)} (h : ∀ label ∈ labels, Undelimited label) :
    Undelimited (join labels) := by
  induction labels with
  | nil => exact undelimited_nil
  | cons label rest ih =>
    obtain ⟨hlabel, hrest⟩ := List.forall_mem_cons.mp h
    cases rest with
    | nil => exact hlabel
    | cons next rest =>
      exact undelimited_append_iff.mpr ⟨hlabel, undelimited_cons_iff.mpr ⟨by decide, ih hrest⟩⟩

theorem undelimited_labelCode {label : List Char} (h : Undelimited label) :
    Undelimited (labelCode label) := by
  rw [labelCode]
  split
  · exact h
  · exact undelimited_append_iff.mpr ⟨by decide, undelimited_punycode h⟩

/-- The delimiters are among the characters that no domain name may hold. -/
theorem isDelimiter_of_not_isForbidden (h : isForbidden c = false) : isDelimiter c = false := by
  refine Bool.eq_false_iff.mpr fun hend => ?_
  rcases eq_of_isDelimiter hend with rfl | rfl | rfl <;> exact absurd h (by decide)

theorem undelimited_toAscii {name code : List Char} (h : toAscii? name = some code) :
    Undelimited code := by
  rw [toAscii?] at h
  obtain ⟨chars, -, h⟩ := Option.bind_eq_some_iff.mp h
  obtain ⟨_, hguard, h⟩ := Option.bind_eq_some_iff.mp h
  obtain ⟨_, -, h⟩ := Option.bind_eq_some_iff.mp h
  obtain ⟨_, -, h⟩ := Option.bind_eq_some_iff.mp h
  obtain rfl := Option.some.inj h
  have hallowed : Undelimited (Text.compose chars.flatten) := by
    have hnone := (Option.guard_eq_some' _).mp hguard
    rw [Bool.not_eq_true', List.any_eq_false] at hnone
    exact fun c hc => isDelimiter_of_not_isForbidden (Bool.eq_false_iff.mpr (hnone c hc))
  refine undelimited_join fun label hlabel => ?_
  obtain ⟨piece, hpiece, rfl⟩ := List.mem_map.mp hlabel
  exact undelimited_labelCode (undelimited_of_mem_pieces hallowed hpiece)

end Domains

section Authorities

/-- The result of a step of a reader is that of the next one. -/
theorem bind_eq_ok {ε α β : Type} {x : Except ε α} {f : α → Except ε β} {b : β} :
    x >>= f = .ok b ↔ ∃ a, x = .ok a ∧ f a = .ok b := by
  cases x <;> simp [bind, Except.bind]

theorem undelimited_ofBrackets {host : Host} (h : Host.ofBrackets cs = .ok host) :
    Undelimited host.render := by
  rw [Host.ofBrackets] at h
  split at h
  · split at h
    · next words _ =>
      obtain rfl := Except.ok.inj h
      rw [Host.render, undelimited_cons_iff, undelimited_append_iff]
      exact ⟨by decide, undelimited_ipv6 words, by decide⟩
    · exact absurd h (by simp)
  · exact absurd h (by simp)

theorem undelimited_ofSpecial {host : Host} (h : Host.ofSpecial cs = .ok host) :
    Undelimited host.render := by
  rw [Host.ofSpecial] at h
  split at h
  · exact undelimited_ofBrackets h
  · dsimp only at h
    split at h
    · exact absurd h (by simp)
    · exact absurd h (by simp)
    · next name hname =>
      obtain ⟨_, -, hascii⟩ := Option.bind_eq_some_iff.mp hname
      split at h
      · split at h
        · next address _ =>
          obtain rfl := Except.ok.inj h
          exact undelimited_ipv4 address
        · exact absurd h (by simp)
      · obtain rfl := Except.ok.inj h
        exact undelimited_toAscii hascii

theorem undelimited_ofOpaque {host : Host} (h : Host.ofOpaque cs = .ok host) :
    Undelimited host.render := by
  rw [Host.ofOpaque] at h
  split at h
  · exact undelimited_ofBrackets h
  · split at h
    · exact absurd h (by simp)
    · next hallowed =>
      obtain rfl := Except.ok.inj h
      refine Undelimited.encode (fun c hc => ?_) controls
      have hnot : Host.isForbiddenOpaque c = false := by
        rw [Bool.not_eq_true, List.any_eq_false] at hallowed
        exact Bool.eq_false_iff.mpr (hallowed c hc)
      refine Bool.eq_false_iff.mpr fun hend => ?_
      rcases eq_of_isDelimiter hend with rfl | rfl | rfl <;> exact absurd hnot (by decide)

theorem undelimited_host {host : Host}
    (h : Host.ofSpecial cs = .ok host ∨ Host.ofOpaque cs = .ok host) : Undelimited host.render :=
  h.elim undelimited_ofSpecial undelimited_ofOpaque

/-- No part of an authority has a delimiter. -/
structure Authority.IsUndelimited (a : Authority) : Prop where
  username : Undelimited a.username
  password : Undelimited a.password
  host : ∀ host ∈ a.host, Undelimited host.render

theorem Authority.IsUndelimited.render {a : Authority} (h : a.IsUndelimited) :
    Undelimited a.render := by
  rw [Authority.render, undelimited_append_iff, undelimited_append_iff]
  refine ⟨⟨?user, ?host⟩, ?port⟩
  case user =>
    split
    · exact undelimited_nil
    · rw [undelimited_append_iff, undelimited_append_iff]
      refine ⟨⟨h.username, ?_⟩, by decide⟩
      split
      · exact undelimited_nil
      · exact undelimited_cons_iff.mpr ⟨by decide, h.password⟩
  case host =>
    cases hname : a.host with
    | none => exact undelimited_nil
    | some host => exact h.host host hname
  case port =>
    split
    · exact undelimited_cons_iff.mpr ⟨by decide, undelimited_toDigits (by decide) (by decide) _⟩
    · exact undelimited_nil

theorem undelimited_userInfo {k : Kind} {rest : List Char} {user : Authority}
    (h : readUserInfo k cs = .ok (user, rest)) :
    Undelimited user.username ∧ Undelimited user.password ∧ user.host = none := by
  have hnobody : Undelimited ({} : Authority).username ∧ Undelimited ({} : Authority).password ∧
      ({} : Authority).host = none := ⟨undelimited_nil, undelimited_nil, rfl⟩
  rw [readUserInfo] at h
  split at h
  · dsimp only at h
    split at h
    · obtain ⟨rfl, -⟩ := Prod.mk.inj (Except.ok.inj h)
      exact hnobody
    · split at h
      · exact absurd h (by simp)
      · obtain ⟨rfl, -⟩ := Prod.mk.inj (Except.ok.inj h)
        exact hnobody
    · obtain ⟨rfl, -⟩ := Prod.mk.inj (Except.ok.inj h)
      have hencoded (info : List Char) : Undelimited (encode inUserInfo info) :=
        undelimited_encode (.inl (by decide)) (by decide) (by decide)
      exact ⟨hencoded _, hencoded _, rfl⟩
  · obtain ⟨rfl, -⟩ := Prod.mk.inj (Except.ok.inj h)
    exact hnobody

theorem isUndelimited_readAuthority {k : Kind} {scheme rest : List Char} {a : Authority}
    (h : readAuthority k scheme cs = .ok (a, rest)) : a.IsUndelimited := by
  rw [readAuthority] at h
  obtain ⟨⟨user, cs'⟩, huser, h⟩ := bind_eq_ok.mp h
  obtain ⟨husername, hpassword, hnone⟩ := undelimited_userInfo huser
  have hwith {host : Host} (hrender : Undelimited host.render) (port : Option Nat) :
      ({ user with host := some host, port := port } : Authority).IsUndelimited := by
    refine ⟨husername, hpassword, fun host' hmem => ?_⟩
    obtain rfl := Option.some.inj hmem
    exact hrender
  dsimp only at h
  split at h
  · split at h
    · exact absurd h (by simp)
    · obtain ⟨rfl, -⟩ := Prod.mk.inj (Except.ok.inj h)
      exact ⟨husername, hpassword, fun host hhost => absurd (hnone ▸ hhost) (by simp)⟩
  · split at h
    all_goals
      obtain ⟨host, hhost, h⟩ := bind_eq_ok.mp h
      have hrender : Undelimited host.render := by
        first | exact undelimited_host (.inl hhost) | exact undelimited_host (.inr hhost)
      split at h
      · obtain ⟨⟨port, rest'⟩, -, h⟩ := bind_eq_ok.mp h
        obtain ⟨rfl, -⟩ := Prod.mk.inj (Except.ok.inj h)
        exact hwith hrender port
      · obtain ⟨rfl, -⟩ := Prod.mk.inj (Except.ok.inj h)
        exact hwith hrender user.port

end Authorities

end AccountGate.Url
