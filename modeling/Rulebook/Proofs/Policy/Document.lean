import Rulebook.Proofs.Policy.Listing

namespace Rulebook

open Json Json.Reader

namespace Policy

def listing (policy : Policy) : Listing :=
  ⟨policy.name, policy.description, policy.version,
    policy.rules.items.map fun rule => (rule.name, rule.draft)⟩

theorem policy_listing (policy : Policy) : policy.listing.policy = policy := by
  have rules : Listing.gather policy.listing.rules = policy.rules := by
    rw [Listing.gather, listing, List.map_map]
    change Roster.ofList Rule.name (policy.rules.items.map id) = policy.rules
    rw [List.map_id, Roster.ofList_items]
  rw [Listing.policy, rules]
  rfl

theorem toJson_eq_document (policy : Policy) :
    policy.toJson = Listing.document policy.name policy.description policy.version
      (policy.rules.items.map fun rule => (rule.name, rule)) := by
  rw [toJson, Listing.document, List.map_map]
  rfl

theorem policy_reads (policy : Policy) : Reads reader policy.toJson policy := by
  have listed : Reads Listing.reader policy.toJson policy.listing := by
    have read := Listing.document_reads policy.name policy.description policy.version
      (policy.rules.items.map fun rule => (rule.name, rule))
    rw [← toJson_eq_document, List.map_map] at read
    exact read
  have seen := Listing.reader_sees.reads listed
  rwa [policy_listing] at seen

/-- A policy is read from its document as it was, with its rules in their order; so that a text that
is a document at all gives the same policy when that is written and read again. -/
theorem ofText_toText :
    (∀ policy : Policy, ofText policy.toText = .ok policy) ∧
      ∀ text, (ofText text >>= fun policy => ofText policy.toText) = ofText text := by
  have kept (policy : Policy) : ofText policy.toText = .ok policy := run_render policy.policy_reads
  refine ⟨kept, fun text => ?_⟩
  simp only [kept]
  exact bind_pure _

end Policy
end Rulebook
