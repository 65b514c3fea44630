import Rulebook.Json.Reader
import Rulebook.Proofs.Features.Navigation
import Rulebook.Proofs.Value.Finite

namespace Rulebook

inductive Json.Finite : Json → Prop where
  | null : Finite .null
  | boolean (flag : Bool) : Finite (.boolean flag)
  | integer {number : Int} (bounded : number.natAbs ≤ 2 ^ 64) : Finite (.integer number)
  | real {number : Double} (finite : number.isFinite = true) : Finite (.real number)
  | string (content : String) : Finite (.string content)
  | array {items : List Json} (each : ∀ item ∈ items, item.Finite) : Finite (.array items)
  | object {entries : List (String × Json)} (each : ∀ entry ∈ entries, entry.2.Finite) :
      Finite (.object entries)

def Json.EachFinite (entries : List (String × Json)) : Prop := ∀ entry ∈ entries, entry.2.Finite

namespace JsonNumeral

theorem takeDigits_lt (digits : List Char) {significand : Nat}
    (small : significand < significandBound) :
    (takeDigits significand digits).1 < significandBound := by
  induction digits generalizing significand with
  | nil => exact small
  | cons digit rest ih =>
      rw [takeDigits]
      split
      · exact ih ‹_›
      · exact small

theorem isFinite_shrink {number : Double} (finite : number.isFinite = true) (places : Nat) :
    (shrink number places).isFinite = true := by
  have divided : ∀ {number : Double} {places : Nat}, number.isFinite = true →
      places ≤ largestStep → (number.div (powerOfTen places)).isFinite = true := by
    intro number places finite le
    obtain ⟨size, power, large⟩ := Double.powerOfTen_eq le
    rw [power]
    exact Floating.isFinite_div Double.precise finite large
  induction places using Nat.strongRecOn generalizing number with
  | ind places ih =>
      rw [shrink]
      split
      · exact divided finite ‹_›
      · split
        · exact finite
        · have step : largestStep = 308 := rfl
          exact ih _ (by omega) (divided finite (Nat.le_refl _))

theorem isFinite_scale? {number scaled : Double} (finite : number.isFinite = true) {places : Int}
    (fits : scale? number places = some scaled) : scaled.isFinite = true := by
  cases places with
  | negSucc places =>
      obtain rfl := Option.some.inj fits
      exact isFinite_shrink finite _
  | ofNat places =>
      rw [scale?] at fits
      split at fits
      · obtain rfl := Option.some.inj fits
        exact finite
      · split at fits
        · dsimp only at fits
          split at fits
          · rename_i finite_product
            obtain rfl := Option.some.inj fits
            exact finite_product
          · contradiction
        · contradiction

theorem isFinite_real? {numeral : JsonNumeral} {number : Double}
    (read : numeral.real? = some number) : number.isFinite = true := by
  obtain ⟨scaled, fits, rfl⟩ := Option.map_eq_some_iff.mp read
  have whole := takeDigits_lt numeral.whole (by decide : 0 < significandBound)
  have digits := takeDigits_lt numeral.fraction whole
  have bound : significandBound = 2 ^ 64 := by decide
  have finite := isFinite_scale? (Double.isFinite_ofInt (by omega)) fits
  split
  · rw [Floating.isFinite_neg]
    exact finite
  · exact finite

theorem natAbs_integer? {numeral : JsonNumeral} {number : Int}
    (read : numeral.integer? = some number) : number.natAbs ≤ 2 ^ 64 := by
  rw [integer?] at read
  repeat' split at read
  all_goals first | contradiction | (obtain rfl := Option.some.inj read; omega)

theorem finite_value? {numeral : JsonNumeral} {data : Json} (read : numeral.value? = some data) :
    data.Finite := by
  rw [value?] at read
  split at read
  · rename_i number whole
    obtain rfl := Option.some.inj read
    exact .integer (natAbs_integer? whole)
  · obtain ⟨number, real, rfl⟩ := Option.map_eq_some_iff.mp read
    exact .real (isFinite_real? real)

end JsonNumeral

namespace Json

namespace Reader

variable {α σ : Type} {holds : α → Prop} {item : Reader α}

def Keeps (holds : α → Prop) (reader : Reader α) : Prop :=
  ∀ tokens reading, reader tokens = .ok reading → holds reading.item

theorem refuse_ne_ok {β : Type} (tokens : List JsonToken) (content : β) :
    (refuse tokens : Except JsonFault β) ≠ .ok content := by
  unfold refuse
  repeat' split
  all_goals nofun

theorem single_keeps {accept : JsonToken → Option α}
    (accepted : ∀ token content, accept token = some content → holds content) :
    Keeps holds (single accept) := by
  intro tokens reading read
  cases tokens with
  | nil => exact absurd read (refuse_ne_ok [] _)
  | cons token rest =>
      rw [single] at read
      split at read
      · rename_i content accepts
        obtain rfl := Except.ok.inj read
        exact accepted token content accepts
      · exact absurd read (refuse_ne_ok _ _)

theorem moreItems_keeps (each : Keeps holds item) :
    Keeps (fun contents => ∀ content ∈ contents, holds content) (moreItems item) := by
  intro tokens
  fun_induction moreItems item tokens with
  | case1 rest =>
      intro reading read
      obtain rfl := Except.ok.inj read
      exact List.forall_mem_nil _
  | case2 rest ih =>
      intro reading read
      obtain ⟨first, first_read, further⟩ := bind_eq_ok.mp read
      obtain ⟨others, others_read, same⟩ := bind_eq_ok.mp further
      obtain rfl := Except.ok.inj same
      exact List.forall_mem_cons.mpr ⟨each rest first first_read, ih first others others_read⟩
  | case3 => exact fun reading read => nomatch read

theorem items_keeps (each : Keeps holds item) :
    Keeps (fun contents => ∀ content ∈ contents, holds content) (items item) := by
  intro tokens reading read
  unfold items at read
  split at read
  · obtain rfl := Except.ok.inj read
    exact List.forall_mem_nil _
  · obtain ⟨first, first_read, further⟩ := bind_eq_ok.mp read
    obtain ⟨others, others_read, same⟩ := bind_eq_ok.mp further
    obtain rfl := Except.ok.inj same
    have kept := moreItems_keeps each _ others others_read
    exact List.forall_mem_cons.mpr ⟨each _ first first_read, kept⟩
  · exact absurd read (refuse_ne_ok _ _)

theorem afterColon_keeps (each : Keeps holds item) : Keeps holds (afterColon item) := by
  intro tokens reading read
  unfold afterColon at read
  split at read
  · obtain ⟨content, content_read, same⟩ := bind_eq_ok.mp read
    obtain rfl := Except.ok.inj same
    exact each _ content content_read
  · contradiction

section

variable {valid : σ → Prop} {entry : Entry σ} {state : σ}

theorem moreEntries_keeps (each : ∀ state key, valid state → Keeps valid (entry state key))
    (start : valid state) : Keeps valid (moreEntries entry state) := by
  intro tokens
  fun_induction moreEntries entry state tokens with
  | case1 state rest =>
      intro reading read
      obtain rfl := Except.ok.inj read
      exact start
  | case2 state key rest ih =>
      intro reading read
      obtain ⟨next, next_read, further⟩ := bind_eq_ok.mp read
      obtain ⟨whole, whole_read, same⟩ := bind_eq_ok.mp further
      obtain rfl := Except.ok.inj same
      exact ih next (each state key start rest next next_read) whole whole_read
  | case3 => exact fun reading read => nomatch read

theorem object_keeps (each : ∀ state key, valid state → Keeps valid (entry state key))
    (start : valid state) : Keeps valid (object entry state) := by
  intro tokens reading read
  unfold object at read
  split at read
  · obtain rfl := Except.ok.inj read
    exact start
  · obtain ⟨first, first_read, further⟩ := bind_eq_ok.mp read
    obtain ⟨whole, whole_read, same⟩ := bind_eq_ok.mp further
    obtain rfl := Except.ok.inj same
    exact moreEntries_keeps each (each state _ start _ first first_read) _ whole whole_read
  · contradiction
  · exact absurd read (refuse_ne_ok _ _)

end

theorem scalar_keeps : Keeps Json.Finite scalar := by
  apply single_keeps
  intro token content accepts
  cases token with
  | number numeral => exact JsonNumeral.finite_value? accepts
  | text content? =>
      obtain ⟨text, -, rfl⟩ := Option.map_eq_some_iff.mp accepts
      exact .string text
  | boolean flag =>
      obtain rfl := Option.some.inj accepts
      exact .boolean flag
  | null =>
      obtain rfl := Option.some.inj accepts
      exact .null
  | _ => contradiction

theorem eachFinite_insertEntry {key : String} {data : Json} {entries : List (String × Json)}
    (finite : data.Finite) (each : EachFinite entries) :
    EachFinite (insertEntry key data entries) := by
  induction entries with
  | nil => exact List.forall_mem_singleton.mpr finite
  | cons entry rest ih =>
      obtain ⟨first, others⟩ := List.forall_mem_cons.mp each
      rw [insertEntry]
      split
      · exact List.forall_mem_cons.mpr ⟨finite, each⟩
      · split
        · exact List.forall_mem_cons.mpr ⟨finite, others⟩
        · exact List.forall_mem_cons.mpr ⟨first, ih others⟩

theorem entry_keeps {item : Reader Json} (finite : Keeps Json.Finite item)
    (entries : List (String × Json)) (key : String) (each : EachFinite entries) :
    Keeps EachFinite fun tokens => do
      let value ← afterColon item tokens
      return value.map (insertEntry key · entries) := by
  intro tokens reading read
  obtain ⟨content, content_read, same⟩ := bind_eq_ok.mp read
  obtain rfl := Except.ok.inj same
  exact eachFinite_insertEntry (afterColon_keeps finite _ content content_read) each

theorem valueWith_keeps {nested : Option (Reader Json)}
    (inside : ∀ item, nested = some item → Keeps Json.Finite item) :
    Keeps Json.Finite (valueWith nested) := by
  intro tokens reading read
  unfold valueWith at read
  split at read
  · split at read
    · contradiction
    · rename_i item
      obtain ⟨whole, whole_read, same⟩ := bind_eq_ok.mp read
      obtain rfl := Except.ok.inj same
      exact .array (items_keeps (inside item rfl) _ whole whole_read)
  · split at read
    · contradiction
    · rename_i item
      obtain ⟨whole, whole_read, same⟩ := bind_eq_ok.mp read
      obtain rfl := Except.ok.inj same
      have kept := object_keeps (entry_keeps (inside item rfl)) (List.forall_mem_nil _)
      exact .object (kept _ whole whole_read)
  · exact scalar_keeps _ reading read

theorem value_keeps (room : Nat) : Keeps Json.Finite (value room) := by
  induction room with
  | zero => exact valueWith_keeps nofun
  | succ room ih =>
      apply valueWith_keeps
      intro item same
      obtain rfl := Option.some.inj same
      exact ih

end Reader

/-- What is read from a text holds finite numbers only. -/
theorem finite_ofText {text : String} {data : Json} (read : ofText text = .ok data) :
    data.Finite := by
  obtain ⟨whole, whole_read, ends⟩ := bind_eq_ok.mp read
  split at ends
  · obtain rfl := Except.ok.inj ends
    exact Reader.value_keeps _ _ whole whole_read
  · contradiction

end Json

namespace Json

variable {node next : Json}

theorem EachFinite.lookup {entries : List (String × Json)} {key : String}
    (each : EachFinite entries) (found : entries.lookup key = some next) : next.Finite := by
  obtain ⟨before, after, rfl, -⟩ := List.lookup_eq_some_iff.mp found
  exact each (key, next) (List.mem_append_right _ List.mem_cons_self)

namespace Finite

theorem value {value : Value} (finite : node.Finite) (scalar : Value.ofJson? node = some value) :
    value.Finite := by
  cases finite with
  | @integer number bounded =>
      obtain rfl := Option.some.inj scalar
      cases narrow : Value.ofInteger? number with
      | none => exact Double.isFinite_ofInt bounded
      | some value => exact Value.finite_ofInteger? narrow
  | real finite =>
      obtain rfl := Option.some.inj scalar
      exact finite
  | null | boolean | string =>
      obtain rfl := Option.some.inj scalar
      trivial
  | array | object => contradiction

theorem get? {key : String} (finite : node.Finite) (found : node.get? key = some next) :
    next.Finite := by
  cases finite with
  | object each => exact EachFinite.lookup each found
  | _ => contradiction

theorem enters {segment : Path.Segment} (finite : node.Finite) (enters : segment.Enters node next) :
    next.Finite := by
  cases finite with
  | object each =>
      cases enters with
      | entry held => exact EachFinite.lookup each held
      | element held denotes item =>
          cases EachFinite.lookup each held with
          | array items => exact items _ (List.mem_of_getElem? item)
  | _ => cases enters

theorem leadsTo {segments : List Path.Segment} (finite : node.Finite)
    (leads : Path.LeadsTo node segments next) : next.Finite := by
  induction leads with
  | here node => exact finite
  | onward enters _ _ ih => exact ih (finite.enters enters)

end Finite
end Json

theorem Features.finite_value {features : Features} (finite : features.data.Finite) {path : String}
    {value : Value} (found : features.value path = .ok value) : value.Finite := by
  obtain ⟨node, led, scalar⟩ := bind_eq_ok.mp found
  cases node with
  | none =>
      obtain rfl := Except.ok.inj scalar
      trivial
  | some node =>
      dsimp only at scalar
      split at scalar
      · rename_i value reads
        obtain rfl := Except.ok.inj scalar
        obtain ⟨segments, -, leads⟩ := Features.find_eq_some.mp led
        exact (finite.leadsTo leads).value reads
      · contradiction

end Rulebook
