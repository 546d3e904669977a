import AccountGate.License.KeyCache
import AccountGate.Proofs.License.Binding
import AccountGate.Proofs.Rsa.PublicKey

/-!
Checks with the two forms of a key. Main statement: either form holds the key, so that signatures
and claims are judged alike whichever of them is kept.
-/

namespace AccountGate.License

open Rsa (PublicKey)

variable {key : PublicKey} {text text' : String}

/-- Only the key that a text holds counts. -/
theorem fault?_congr (h : PublicKey.parse? text = some key) (h' : PublicKey.parse? text' = some key)
    (message signature : Bytes) : fault? message signature text = fault? message signature text' := by
  by_cases hmessage : message = []
  · simp [fault?, hmessage]
  · by_cases hsignature : signature = []
    · rw [hsignature, fault?_of_empty hmessage, fault?_of_empty hmessage]
    · rw [fault?_of_parsed hmessage hsignature h, fault?_of_parsed hmessage hsignature h']

theorem Entitlement.check_congr (h : ∀ message signature, fault? message signature text =
    fault? message signature text') (e : Entitlement) (today : Date) :
    e.check text today = e.check text' today := by
  simp only [Entitlement.check, h]

/-- An accepted key is read from each of its forms, and all checks with them agree. -/
theorem key_forms_agree (haccepted : key.Accepted) (hform : key.FormOf text)
    (hform' : key.FormOf text') :
    PublicKey.parse? text = some key ∧ PublicKey.parse? text' = some key ∧
    (∀ message signature, fault? message signature text = fault? message signature text') ∧
    ∀ (e : Entitlement) today, e.check text today = e.check text' today ∧
      KeyCache.check (.ok text) e today = KeyCache.check (.ok text') e today := by
  have hread := hform.parse?_eq haccepted
  have hread' := hform'.parse?_eq haccepted
  have hfault := fault?_congr hread hread'
  refine ⟨hread, hread', hfault, fun e today => ⟨e.check_congr hfault today, ?_⟩⟩
  simp only [KeyCache.check, e.check_congr hfault today]

/-- The bare form of the sample key, with the line ends of another system and blanks around it. -/
def bareSampleText : String :=
  String.ofList ([' ', '\n'] ++
    Rsa.Pem.withLineEnds ['\r', '\n'] Entitlement.sampleKey.bareText.toList ++ ['\t'])

set_option maxRecDepth 10000 in
theorem sample_supported_with_bare_key :
    Entitlement.sampleKey.Accepted ∧ Entitlement.sampleKey.FormOf Entitlement.sampleKeyText ∧
    Entitlement.sampleKey.FormOf bareSampleText ∧
    Entitlement.sample.check bareSampleText ⟨2024, 6, 15⟩ = .supported := by
  have haccepted : Entitlement.sampleKey.Accepted := by decide +kernel
  have htext : String.ofList ([] ++ Rsa.Pem.withLineEnds ['\n']
      Entitlement.sampleKey.subjectText.toList ++ []) = Entitlement.sampleKeyText := by
    rw [List.nil_append, List.append_nil, PublicKey.subjectText,
      Rsa.Pem.withLineEnds_encode (by decide)]
    unfold Entitlement.sampleKeyText
    exact congrArg String.ofList (by decide +kernel)
  have hsubject : Entitlement.sampleKey.FormOf Entitlement.sampleKeyText :=
    htext ▸ .subject (.inl rfl) (by simp) (by simp)
  have hbare : Entitlement.sampleKey.FormOf bareSampleText :=
    .bare (.inr (.inr rfl)) (List.all_eq_true.mp rfl) (List.all_eq_true.mp rfl)
  refine ⟨haccepted, hsubject, hbare, ?_⟩
  rw [← ((key_forms_agree haccepted hsubject hbare).2.2.2 _ _).1, Entitlement.check_sample]

end AccountGate.License
