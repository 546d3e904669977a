import AccountGate.Account.Claims
import AccountGate.Proofs.Codec.Base64
import AccountGate.Proofs.Json.Printed
import AccountGate.Proofs.Text.Pieces

/-!
The claims of an access token. Main statement: they are what the middle one of three segments spells,
so that the claims written into a token are those read from it.
-/

namespace AccountGate.Account

open Codec.Base64 (Alphabet Spells decodeUrl padding spelled standardized)

/-- The decoder of either alphabet reads what is spelled in the standard one after the symbols of the
other are replaced. -/
theorem decodeUrl_eq_ok_iff {s : String} {bs : Bytes} :
    decodeUrl s = .ok bs ↔ Spells bs (standardized s) := by
  rw [Codec.Base64.decodeUrl_eq, Codec.Base64.decode_eq_ok_iff, Codec.Base64.spells_iff]

theorem dot_notMem_spelled (alphabet : Alphabet) (bs : Bytes) (signs : Nat) :
    '.' ∉ (spelled alphabet bs signs).toList := by
  have hother := Codec.Base64.forall_mem_spelled (p := fun c => c ≠ '.') (by decide)
    (fun _ hv => Codec.Base64.symbol_ne alphabet hv (by decide)) bs signs
  exact fun hdot => hother _ hdot rfl

theorem split_token_iff {token head payload tail : String} :
    Text.split '.' token = [head, payload, tail] ↔
      token = head ++ "." ++ payload ++ "." ++ tail ∧
        '.' ∉ head.toList ∧ '.' ∉ payload.toList ∧ '.' ∉ tail.toList := by
  have htoken : token = head ++ "." ++ payload ++ "." ++ tail ↔
      token.toList = head.toList ++ '.' :: (payload.toList ++ '.' :: tail.toList) := by
    rw [← String.toList_inj]
    simp
  rw [Text.split_eq_three_iff, htoken]

theorem claims_eq_ok_iff {token : String} {value : Json} : claims token = .ok value ↔
    ∃ head payload tail bs, Text.split '.' token = [head, payload, tail] ∧
      decodeUrl payload = .ok bs ∧ Json.parse? bs = some value ∧ value.isObject = true := by
  rw [claims]
  constructor
  · intro h
    split at h
    · next head payload tail hsplit =>
      split at h
      · exact absurd h (by simp)
      · next bs hdecode =>
        split at h
        · exact absurd h (by simp)
        · next parsed hparse =>
          split at h
          · next hobject =>
            obtain rfl := Except.ok.inj h
            exact ⟨head, payload, tail, bs, hsplit, hdecode, hparse, hobject⟩
          · exact absurd h (by simp)
    · exact absurd h (by simp)
  · rintro ⟨head, payload, tail, bs, hsplit, hdecode, hparse, hobject⟩
    simp only [hsplit, hdecode, hparse, hobject, if_true]

/-- Claims are read from a token exactly where it has two dots and an object in Base64 between them,
in either alphabet and with any padding or none. An object of whole numbers that the reader goes deep
enough for is read back from any token that its text is put into. -/
theorem claims_read_from_payload (token : String) (value : Json) :
    (claims token = .ok value ↔ ∃ head payload tail bs,
      token = head ++ "." ++ payload ++ "." ++ tail ∧
      ('.' ∉ head.toList ∧ '.' ∉ payload.toList ∧ '.' ∉ tail.toList) ∧
      Spells bs (standardized payload) ∧ Json.parse? bs = some value ∧ value.isObject = true) ∧
    ∀ (alphabet : Alphabet) (head tail : String) (signs : Nat), Json.Exact Json.maxDepth value →
      value.isObject = true → '.' ∉ head.toList → '.' ∉ tail.toList →
      signs ≤ padding (Text.bytes value.render) →
      claims (head ++ "." ++ spelled alphabet (Text.bytes value.render) signs ++ "." ++ tail) =
        .ok value := by
  refine ⟨?read, fun alphabet head tail signs hexact hobject hhead htail hsigns => ?written⟩
  case read =>
    simp only [claims_eq_ok_iff, split_token_iff, decodeUrl_eq_ok_iff, and_assoc]
  case written =>
    have hdot := dot_notMem_spelled alphabet (Text.bytes value.render) signs
    exact claims_eq_ok_iff.mpr ⟨head, _, tail, _, split_token_iff.mpr ⟨rfl, hhead, hdot, htail⟩,
      Codec.Base64.decodeUrl_spelled alphabet hsigns, hexact.parse?_render, hobject⟩

/-- A subject with two numbers, in the URL alphabet and without padding. -/
theorem sample_claims_read_back : claims ("h" ++ "." ++ spelled .url (Text.bytes (Json.render
    (.object [("auth_time", .number (.int 7)), ("roles", .array [.number (.int (-1))]),
      ("sub", .text "u1")]))) 0 ++ "." ++ "") =
    .ok (.object [("auth_time", .number (.int 7)), ("roles", .array [.number (.int (-1))]),
      ("sub", .text "u1")]) := by
  refine (claims_read_from_payload "" _).2 .url "h" "" 0 (.object (by decide) ?_) rfl (by decide)
    (by decide) (Nat.zero_le _)
  have hnumber : ∀ n : Int, -1 ≤ n → n ≤ 7 → ∀ depth, Json.Exact depth (.number (.int n)) :=
    fun n hlow hhigh _ => .number (by simp only [Json.minMagnitude]; omega)
      (by simp only [Json.maxWord]; omega)
  simp only [List.forall_mem_cons, List.not_mem_nil, false_implies, implies_true, and_true]
  exact ⟨hnumber 7 (by decide) (by decide) _,
    .array (by simpa using hnumber (-1) (by decide) (by decide) 125), .text "u1"⟩

end AccountGate.Account
