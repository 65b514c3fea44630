import Rulebook.Proofs.Policy.Document
import Rulebook.Proofs.Policy.Schedule

/-! The rules of a policy after any work on it.

A policy starts without rules, or with those of a document; after that rules are declared on it, and
it is written and read again. What it holds is told by the rules that were defined on the way, one
after the other. The same work is done on a policy that keeps a key with each rule, as a table does
that knows nothing of names; the keys that come of it are the names, and nothing gets lost when its
rules are entered into a graph or looked up. -/

namespace Rulebook

theorem Rule.foldl_dependOn (name expression description : String) (mentioned : List String) :
    mentioned.foldl dependOn ⟨name, expression, description, []⟩ =
      ⟨name, expression, description, mentioned.eraseDups⟩ := by
  induction mentioned using List.reverseRecOn with
  | nil => rfl
  | append_singleton mentioned dependency ih =>
      rw [List.foldl_concat, ih, dependOn, eraseDups_concat]
      by_cases present : dependency ∈ mentioned
      · rw [if_pos (List.mem_eraseDups.mpr present), if_pos present]
      · rw [if_neg fun member => present (List.mem_eraseDups.mp member), if_neg present]

structure KeyedPolicy where
  name : String
  description : String
  version : String
  rules : Directory Rule

namespace KeyedPolicy

def named (name version : String) : KeyedPolicy := ⟨name, "", version, Roster.empty _⟩

def declare (policy : KeyedPolicy) (rule : Rule) : KeyedPolicy :=
  { policy with rules := Directory.insert policy.rules rule.name rule }

def ofListing (listing : Policy.Listing) : KeyedPolicy where
  name := listing.name
  description := listing.description
  version := listing.version
  rules :=
    let drafts : Directory Rule.Draft := Roster.ofList Prod.fst listing.rules
    Roster.ofList Prod.fst (drafts.items.map fun (key, draft) => (key, draft.complete key))

def ofText (text : String) : Except JsonFault KeyedPolicy := ofListing <$> Policy.Listing.ofText text

def toText (policy : KeyedPolicy) : String :=
  (Policy.Listing.document policy.name policy.description policy.version
    policy.rules.items).render

def graph (policy : KeyedPolicy) : RuleGraph :=
  ⟨Roster.ofList Prod.fst (policy.rules.items.map fun (_, rule) => (rule.name, rule.dependencies))⟩

/-- What is kept under keys is a policy: each rule stands under its name and is found through it, and
the graph lacks no rule and orders no other names. -/
structure Stores (keyed : KeyedPolicy) (policy : Policy) : Prop where
  named : ∀ key rule, (key, rule) ∈ keyed.rules.items → rule.name = key
  rules : keyed.rules.items.map Prod.snd = policy.rules.items
  found : ∀ name, Directory.lookup? keyed.rules name = policy.rule? name
  graph : keyed.graph = RuleGraph.ofPolicy policy
  nodes : keyed.graph.rules = policy.rules.items.map Rule.name
  scheduled : ∀ order, policy.schedule = .ok order → keyed.graph.order = .ok order
  placed : ∀ order, keyed.graph.order = .ok order →
    ∀ name ∈ order, ∃ rule, policy.rule? name = some rule ∧ rule.name = name

end KeyedPolicy

namespace Policy

/-- What a policy tells of its rules when they were defined one after the other: each name once, where
it was first defined, and under a name the rule that was last defined for it. -/
structure Records (policy : Policy) (definitions : List Rule) : Prop where
  names : policy.rules.keys = (definitions.map Rule.name).eraseDups
  distinct : policy.rules.keys.Nodup
  latest : ∀ name, policy.rule? name = definitions.reverse.find? fun rule => rule.name = name
  known : ∀ name, policy.has name = true ↔ name ∈ definitions.map Rule.name

theorem records_of_rules {policy : Policy} {definitions : List Rule}
    (entered : policy.rules = Roster.ofList Rule.name definitions) :
    policy.Records definitions := by
  have names : policy.rules.keys = (definitions.map Rule.name).eraseDups := by
    rw [entered, Roster.keys_ofList]
  refine ⟨names, ?_, ?_, ?_⟩
  · rw [names]
    exact nodup_eraseDups _
  · intro name
    rw [rule?, entered, Roster.get?_ofList]
  · intro name
    rw [has, Roster.contains_iff, names, List.mem_eraseDups]

def keyed (policy : Policy) : KeyedPolicy :=
  ⟨policy.name, policy.description, policy.version, policy.rules.paired⟩

theorem keyed_declare (policy : Policy) (rule : Rule) :
    (policy.declare rule).keyed = policy.keyed.declare rule := by
  rw [keyed, declare, Roster.paired_put]
  rfl

theorem ofText_eq_listed (text : String) : ofText text = Listing.policy <$> Listing.ofText text :=
  Listing.reader_sees.run text

/-- Whether drafts are put together by key or rules by name comes to the same, as a rule of a document
is named by its key. -/
theorem keyed_listed (listing : Listing) :
    listing.policy.keyed = KeyedPolicy.ofListing listing := by
  have beside (entry : String × Rule.Draft) :
      Prod.fst (entry.1, entry.2.complete entry.1) = entry.1 := rfl
  have byName : listing.policy.keyed.rules =
      Roster.ofList Prod.fst (listing.rules.map fun (key, draft) => (key, draft.complete key)) := by
    rw [keyed, Listing.policy, Listing.gather, Roster.paired_ofList, List.map_map]
    rfl
  have byKey : (KeyedPolicy.ofListing listing).rules =
      Roster.ofList Prod.fst (listing.rules.map fun (key, draft) => (key, draft.complete key)) := by
    change Roster.ofList Prod.fst ((Roster.ofList Prod.fst listing.rules).items.map
      fun entry => (entry.1, entry.2.complete entry.1)) = _
    rw [Roster.map_view_ofList beside, Roster.ofList_items]
  have same := byName.trans byKey.symm
  exact congrArg (KeyedPolicy.mk listing.name listing.description listing.version) same

theorem ofText_keyed (text : String) : KeyedPolicy.ofText text = keyed <$> ofText text := by
  rw [KeyedPolicy.ofText, ofText_eq_listed, ← comp_map]
  congr 1
  funext listing
  exact (keyed_listed listing).symm

theorem toText_keyed (policy : Policy) : policy.keyed.toText = policy.toText := by
  rw [toText, toJson_eq_document]
  rfl

theorem graph_keyed (policy : Policy) : policy.keyed.graph = RuleGraph.ofPolicy policy := by
  have entered : policy.keyed.rules.items.map (fun (_, rule) => (rule.name, rule.dependencies)) =
      (RuleGraph.ofPolicy policy).edges.items := by
    rw [keyed, Roster.paired, RuleGraph.ofPolicy, List.map_map]
    rfl
  rw [KeyedPolicy.graph, entered, Roster.ofList_items]

theorem lookup?_keyed (policy : Policy) (name : String) :
    Directory.lookup? policy.keyed.rules name = policy.rule? name := by
  ext rule
  rw [Directory.lookup?_eq_some, rule?, Roster.get?_eq_some, keyed, Roster.paired, List.mem_map]
  constructor
  · intro beside
    rcases beside with ⟨other, member, same⟩
    rcases Prod.mk.inj same with ⟨rfl, rfl⟩
    exact ⟨member, rfl⟩
  · intro named
    rcases named with ⟨member, rfl⟩
    exact ⟨rule, member, rfl⟩

theorem rule?_of_order {policy : Policy} {order : List String}
    (ordered : (RuleGraph.ofPolicy policy).order = .ok order) {name : String}
    (member : name ∈ order) : ∃ rule, policy.rule? name = some rule ∧ rule.name = name := by
  have placed := (RuleGraph.placeAll_ok RuleGraph.ordered_nil ordered).1.exist name member
  rw [rules_ofPolicy] at placed
  obtain ⟨rule, found⟩ := Option.ne_none_iff_exists'.mp (Roster.get?_ne_none.mpr placed)
  exact ⟨rule, found, (Roster.get?_eq_some.mp found).2⟩

theorem keyed_stores (policy : Policy) : policy.keyed.Stores policy where
  named := by
    intro key rule member
    have found := Directory.lookup?_eq_some.mpr member
    rw [lookup?_keyed] at found
    exact (Roster.get?_eq_some.mp found).2
  rules := by
    rw [keyed, Roster.paired, List.map_map]
    exact List.map_id _
  found := lookup?_keyed policy
  graph := graph_keyed policy
  nodes := by
    rw [graph_keyed, rules_ofPolicy]
    rfl
  scheduled := by
    intro order scheduled
    obtain ⟨graph, valid, ordered⟩ := bind_eq_ok.mp scheduled
    rw [graph_keyed, ← (validate_eq_ok.mp valid).1]
    exact ordered
  placed := by
    intro order ordered name member
    rw [graph_keyed] at ordered
    exact rule?_of_order ordered member

inductive History where
  | named (name version : String)
  | read (text : String)
  | declare (earlier : History) (rule : Rule)
  | reload (earlier : History)

namespace History

def policy : History → Except JsonFault Policy
  | named name version => .ok (Policy.named name version)
  | read text => ofText text
  | declare earlier rule => (·.declare rule) <$> earlier.policy
  | reload earlier => earlier.policy >>= fun policy => ofText policy.toText

def keyed : History → Except JsonFault KeyedPolicy
  | named name version => .ok (KeyedPolicy.named name version)
  | read text => KeyedPolicy.ofText text
  | declare earlier rule => (·.declare rule) <$> earlier.keyed
  | reload earlier => earlier.keyed >>= fun policy => KeyedPolicy.ofText policy.toText

def definitions : History → Except JsonFault (List Rule)
  | named _ _ => .ok []
  | read text => Listing.definitions <$> Listing.ofText text
  | declare earlier rule => (· ++ [rule]) <$> earlier.definitions
  | reload earlier => earlier.definitions

variable (history : History)

theorem keyed_eq : history.keyed = Policy.keyed <$> history.policy := by
  induction history with
  | named name version => rfl
  | read text => exact ofText_keyed text
  | declare earlier rule ih =>
      rw [keyed, policy, ih, ← comp_map, ← comp_map]
      congr 1
      funext before
      exact (before.keyed_declare rule).symm
  | reload earlier ih =>
      rw [keyed, policy, ih, bind_map_left, map_bind]
      apply bind_congr
      intro before
      rw [toText_keyed, ofText_keyed]

theorem policy_reload : (reload history).policy = history.policy := by
  have again : (fun policy : Policy => ofText policy.toText) = pure := by
    funext policy
    exact Json.Reader.run_render policy.policy_reads
  rw [policy, again]
  exact bind_pure _

theorem rules_eq :
    Policy.rules <$> history.policy = Roster.ofList Rule.name <$> history.definitions := by
  induction history with
  | named name version => rfl
  | read text =>
      rw [policy, definitions, ofText_eq_listed, ← comp_map, ← comp_map]
      rfl
  | declare earlier rule ih =>
      calc
        Policy.rules <$> (declare earlier rule).policy =
            (·.put rule) <$> Policy.rules <$> earlier.policy := by
          rw [policy, ← comp_map, ← comp_map]
          rfl
        _ = (·.put rule) <$> Roster.ofList Rule.name <$> earlier.definitions := by rw [ih]
        _ = Roster.ofList Rule.name <$> (declare earlier rule).definitions := by
          rw [definitions, ← comp_map, ← comp_map]
          congr 1
          funext given
          exact (Roster.ofList_concat given rule).symm
  | reload earlier ih =>
      rw [policy_reload, definitions]
      exact ih

theorem definitions_document (name description version : String) (rules : List (String × Rule)) :
    (read (Listing.document name description version rules).render).definitions =
      .ok (rules.map fun (key, rule) => { rule with name := key }) := by
  have listed := Json.Reader.run_render (Listing.document_reads name description version rules)
  rw [definitions, Listing.ofText, listed]
  change Except.ok (List.map _ (List.map _ rules)) = _
  rw [List.map_map]
  rfl

end History

/-- However a policy comes about, it holds the rules that were defined on the way, each name once and
with the last rule of that name; kept under keys of their own, they come to stand under their names. In
a document the keys name the rules, also where a key is repeated or another name is written with a rule.
What a rule is made to depend on is listed once, where it was first mentioned. -/
theorem rules_follow_definitions :
    (∀ (history : History) (policy : Policy), history.policy = .ok policy →
      ∃ definitions keyed, history.definitions = .ok definitions ∧ history.keyed = .ok keyed ∧
        policy.Records definitions ∧ keyed.Stores policy) ∧
    (∀ name description version rules, ∃ policy,
      (History.read (Listing.document name description version rules).render).policy = .ok policy ∧
        policy.Records (rules.map fun (key, rule) => { rule with name := key })) ∧
    ∀ (name expression description : String) (mentioned : List String),
      let built := mentioned.foldl Rule.dependOn ⟨name, expression, description, []⟩
      built = ⟨name, expression, description, mentioned.eraseDups⟩ ∧ built.dependencies.Nodup := by
  refine ⟨?_, ?_, ?_⟩
  · intro history policy made
    have entered := history.rules_eq
    rw [made] at entered
    obtain ⟨definitions, given, same⟩ := map_eq_ok.mp entered.symm
    have stored : history.keyed = .ok policy.keyed := by
      rw [history.keyed_eq, made]
      rfl
    exact ⟨definitions, policy.keyed, given, stored, records_of_rules same.symm, policy.keyed_stores⟩
  · intro name description version rules
    have entered := (History.read (Listing.document name description version rules).render).rules_eq
    rw [History.definitions_document] at entered
    obtain ⟨policy, made, same⟩ := map_eq_ok.mp entered
    exact ⟨policy, made, records_of_rules same⟩
  · intro name expression description mentioned built
    have listed : built = ⟨name, expression, description, mentioned.eraseDups⟩ :=
      Rule.foldl_dependOn name expression description mentioned
    refine ⟨listed, ?_⟩
    rw [listed]
    exact nodup_eraseDups mentioned

def tariff : History :=
  .reload (.declare (.declare (.read (Listing.document "tariff" "" "1" [
    ("base", ⟨"price", "10", "", []⟩), ("total", ⟨"total", "base * 2", "", ["base"]⟩),
    ("base", ⟨"list", "20", "", []⟩)]).render)
    ⟨"total", "base + fee", "", ["base", "fee"]⟩) ⟨"fee", "5", "", []⟩)

def tariffPolicy : Policy where
  name := "tariff"
  description := ""
  version := "1"
  rules := ⟨[⟨"base", "20", "", []⟩, ⟨"total", "base + fee", "", ["base", "fee"]⟩,
    ⟨"fee", "5", "", []⟩], by decide⟩

theorem tariff_follows_definitions :
    tariff.policy = .ok tariffPolicy ∧
      ∃ definitions keyed, tariff.definitions = .ok definitions ∧ tariff.keyed = .ok keyed ∧
        tariffPolicy.Records definitions ∧ keyed.Stores tariffPolicy := by
  have made : tariff.policy = .ok tariffPolicy := by
    rw [tariff, History.policy_reload, History.policy, History.policy, History.policy,
      ofText_eq_listed, Listing.ofText, Json.Reader.run_render (Listing.document_reads _ _ _ _)]
    rfl
  exact ⟨made, rules_follow_definitions.1 tariff tariffPolicy made⟩

end Policy
end Rulebook
