import DeviceScope.Proofs.Identity.Layout
import DeviceScope.Proofs.Json.Reading

/-!
# Identities survive as JSON

What is written for a pair, a credential or an identity is plain, so it has a text, and reading
takes it back, whether or not the value was held back in between (`Identity.ofJson?_toJson`).
-/

namespace DeviceScope

namespace Json

theorem plain_ofTexts (texts : List String) : (ofTexts texts).Plain := by
  refine .array ?_
  intro item hitem
  obtain ⟨text, -, rfl⟩ := List.mem_map.1 hitem
  exact .text text

end Json

namespace Pair

theorem plain_toJson (primary secondary : String) (pair : Pair) :
    (pair.toJson primary secondary).Plain := by
  refine .fields ?_
  intro member hmem
  simp only [List.mem_cons, List.not_mem_nil, or_false] at hmem
  rcases hmem with rfl | rfl <;> exact .text _

end Pair

namespace Credential

theorem plain_toJson (credential : Credential) : credential.toJson.Plain := by
  rw [toJson_eq]
  exact .fields (credential.forall_mem_members .text fun pair _ _ => pair.plain_toJson _ _)

end Credential

namespace Identity

theorem plain_toJson (identity : Identity) : identity.toJson.Plain := by
  rw [toJson_eq]
  exact .fields (identity.forall_mem_members .text Json.plain_ofTexts
    identity.credential.plain_toJson)

/-- **An identity is read back from its JSON**, held back or not. -/
theorem ofJson?_toJson (held : Bool) (identity : Identity) :
    ofJson? held identity.toJson = some identity :=
  ofJson?_of_laid (identity.laid_toJson Json.rearranges_id .never) held

end Identity

end DeviceScope
