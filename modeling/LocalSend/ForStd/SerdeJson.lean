import LocalSend.ForStd.AssocMap
import Mathlib.Logic.Equiv.Defs

/-!
# JSON values and the derives of serde

The syntax tree of a JSON text, with the members of an object in the order of the text, repeated
ones included, and what a program relies on of serde, which reads the values of its types from such
trees and writes them as such. serde is a parameter, and what its documentation promises are
hypotheses: a struct is read from an object, whose unknown members are passed over and whose fields
may come in any order but not twice; a missing field has its default, or is an `Option` and `None`,
or fails the struct.

## Key results

- `Similar.of_perm`: objects that differ in the order of their members and in unknown ones are similar
- `Serde.Documented.respects_values`, `Serde.Documented.respects_struct`: a struct is read alike from
  similar objects
- `Serde.Documented.readMap_written`: a map is read back from what is similar to what was written for it
- `Serde.plain_documented`: there is such a serde
-/

/-- The syntax tree of a JSON text. -/
inductive Json where
  | null
  | bool (b : Bool)
  /-- A number that is written as a natural one and fits a `u64`. -/
  | natural (n : UInt64)
  /-- Any other number. -/
  | number (text : String)
  | string (s : String)
  | array (elements : List Json)
  | object (members : List (String × Json))

namespace Json

/-- The first member of an object under a name. -/
def member? (members : List (String × Json)) (name : String) : Option Json :=
  (members.find? fun e => e.1 = name).map Prod.snd

/-- No name of a list occurs twice among the members. -/
def Once (names : List String) (members : List (String × Json)) : Prop :=
  ((members.map Prod.fst).filter fun name => name ∈ names).Nodup

instance (names : List String) (members : List (String × Json)) : Decidable (Once names members) :=
  inferInstanceAs (Decidable (List.Nodup _))

end Json

open Json

/-- What each field of a struct is read from. -/
abbrev Fields := String → Option Json

/-! ## serde -/

/-- The parts of serde and serde_json that a program is built from. A reader of a type takes the
    tree of a text; that of a struct is given the names of the fields and how the struct is made of
    them. -/
structure Serde where
  /-- The tree of a text. -/
  parse : String → Option Json
  readString : Json → Option String
  readBool : Json → Option Bool
  readU16 : Json → Option UInt16
  readU64 : Json → Option UInt64
  /-- `Option<T>`. -/
  readOption {α : Type} : (Json → Option α) → Json → Option (Option α)
  /-- An `enum` of variants without data, by their names. -/
  readUnitEnum {α : Type} : (String → Option α) → Json → Option α
  /-- A `HashMap` under keys that are strings. -/
  readMap {κ ν : Type} [DecidableEq κ] : (String ≃ κ) → (Json → Option ν) → Json →
    Option (AssocMap κ ν)
  readStruct {α : Type} : List String → (Fields → Option α) → Json → Option α
  /-- A field that has to be there. -/
  required {α : Type} : String → (Json → Option α) → Fields → Option α
  /-- A field with a default. -/
  defaulted {α : Type} : String → α → (Json → Option α) → Fields → Option α
  /-- A field of type `Option<T>` without a default. -/
  optional {α : Type} : String → (Json → Option α) → Fields → Option (Option α)
  writeOption {α : Type} : (α → Json) → Option α → Json
  /-- A `HashMap` under keys that are strings, in the order of its iteration. -/
  writeMap {κ ν : Type} [DecidableEq κ] : (String ≃ κ) → (ν → Json) → AssocMap κ ν → Json
  /-- A struct, by the fields that are not skipped. -/
  writeStruct : List (String × Json) → Json

namespace Serde

/-- `serde_json::from_str`, for a type with a reader. -/
def fromStr {α : Type} (serde : Serde) (read : Json → Option α) (text : String) : Option α :=
  (serde.parse text).bind read

/-- A serde that keeps to its documentation. -/
structure Documented (serde : Serde) : Prop where
  readString : ∀ s, serde.readString (string s) = some s
  readBool : ∀ b, serde.readBool (Json.bool b) = some b
  readU16 : ∀ n : UInt16, serde.readU16 (natural n.toUInt64) = some n
  readU64 : ∀ n, serde.readU64 (natural n) = some n
  readOption_null : ∀ {α : Type} (read : Json → Option α), serde.readOption read null = some none
  readOption_some : ∀ {α : Type} (read : Json → Option α) (j : Json), j ≠ null →
    serde.readOption read j = (read j).map some
  readUnitEnum : ∀ {α : Type} (variant : String → Option α) (s : String),
    serde.readUnitEnum variant (string s) = variant s
  readMap : ∀ {κ ν : Type} [DecidableEq κ] (key : String ≃ κ) (read : Json → Option ν)
    (members : List (String × Json)), (members.map Prod.fst).Nodup →
      (∀ e ∈ members, (read e.2).isSome) →
    ∃ m, serde.readMap key read (object members) = some m ∧
      ∀ k, m.get? k = (member? members (key.symm k)).bind read
  readStruct : ∀ {α : Type} (names : List String) (make : Fields → Option α)
    (members : List (String × Json)), Once names members →
    serde.readStruct names make (object members) = make (member? members)
  required : ∀ {α : Type} (name : String) (read : Json → Option α) (fields : Fields),
    serde.required name read fields = (fields name).bind read
  defaulted : ∀ {α : Type} (name : String) (default : α) (read : Json → Option α) (fields : Fields),
    serde.defaulted name default read fields = (fields name).elim (some default) read
  optional : ∀ {α : Type} (name : String) (read : Json → Option α) (fields : Fields),
    serde.optional name read fields = (fields name).elim (some none) (serde.readOption read)
  writeOption : ∀ {α : Type} (write : α → Json) (o : Option α),
    serde.writeOption write o = o.elim null write
  writeMap : ∀ {κ ν : Type} [DecidableEq κ] (key : String ≃ κ) (write : ν → Json)
    (m : AssocMap κ ν),
    serde.writeMap key write m = object (m.entries.map fun e => (key.symm e.1, write e.2))
  writeStruct : ∀ members, serde.writeStruct members = object members

end Serde

/-! ## Similar values -/

namespace Json

/-- What a reader looks at in a value. -/
inductive Shape where
  /-- All of it. -/
  | value
  | struct (fields : List (String × Shape))
  | map (shape : Shape)

/-- Values that a reader of some shape cannot tell apart: the members of their objects may differ in
    order, and those of a struct in members that are no fields. -/
inductive Similar : Shape → Json → Json → Prop
  | refl (shape : Shape) (j : Json) : Similar shape j j
  | struct {fields : List (String × Shape)} {members members' : List (String × Json)}
    (once : Once (fields.map Prod.fst) members) (once' : Once (fields.map Prod.fst) members')
    (present : ∀ name ∈ fields.map Prod.fst,
      (member? members name).isSome = (member? members' name).isSome)
    (similar : ∀ name shape j j', (name, shape) ∈ fields → member? members name = some j →
      member? members' name = some j' → Similar shape j j') :
    Similar (.struct fields) (.object members) (.object members')
  | map {shape : Shape} {members members' : List (String × Json)}
    (once : (members.map Prod.fst).Nodup) (once' : (members'.map Prod.fst).Nodup)
    (present : ∀ name, (member? members name).isSome = (member? members' name).isSome)
    (similar : ∀ name j j', member? members name = some j → member? members' name = some j' →
      Similar shape j j') :
    Similar (.map shape) (.object members) (.object members')

/-- Fields whose values are similar, or which are both missing. -/
inductive SimilarField (shape : Shape) : Option Json → Option Json → Prop
  | missing : SimilarField shape none none
  | present {j j' : Json} (h : Similar shape j j') : SimilarField shape (some j) (some j')

/-- A field is similar to itself. -/
theorem SimilarField.refl (shape : Shape) (field : Option Json) :
    SimilarField shape field field := by
  cases field with
  | none => exact .missing
  | some j => exact .present (.refl shape j)

/-- Fields are similar if both are there or both are missing, and their values are similar. -/
theorem SimilarField.of_members {shape : Shape} {field field' : Option Json}
    (present : field.isSome = field'.isSome)
    (similar : ∀ j j', field = some j → field' = some j' → Similar shape j j') :
    SimilarField shape field field' := by
  cases field with
  | none =>
    obtain rfl : field' = none := by simpa using present.symm
    exact .missing
  | some j =>
    obtain ⟨j', rfl⟩ := Option.isSome_iff_exists.mp present.symm
    exact .present (similar j j' rfl rfl)

/-- At a shape without fields only the same value is similar. -/
theorem Similar.eq_of_value {j j' : Json} (h : Similar .value j j') : j = j' := by
  cases h
  rfl

/-- At a shape without fields only the same field is similar. -/
theorem SimilarField.eq_of_value {field field' : Option Json}
    (h : SimilarField .value field field') :
    field' = field := by
  cases h with
  | missing => rfl
  | present hsimilar => rw [hsimilar.eq_of_value]

/-- What is similar to a present field is present. -/
theorem SimilarField.of_some {shape : Shape} {j : Json} {field' : Option Json}
    (h : SimilarField shape (some j) field') : ∃ j', field' = some j' ∧ Similar shape j j' := by
  cases h with
  | present hsimilar => exact ⟨_, rfl, hsimilar⟩

/-- Nothing has no members. -/
theorem member?_nil (name : String) : member? [] name = none := rfl

/-- The first member of a name is the one that is found. -/
theorem member?_cons (name : String) (j : Json) (members : List (String × Json)) (name' : String) :
    member? ((name, j) :: members) name' = if name = name' then some j else
      member? members name' := by
  by_cases h : name = name' <;> simp [member?, h]

/-- The members of fields, each of which is there once at most. -/
theorem member?_eq_some_iff {names : List String} {members : List (String × Json)} {name : String}
    {j : Json} (once : Once names members) (hname : name ∈ names) :
    member? members name = some j ↔ (name, j) ∈ members := by
  induction members with
  | nil => simp [member?]
  | cons e members ih =>
    obtain ⟨name', j'⟩ := e
    by_cases hk : name' = name
    · subst hk
      -- a later member of the name would be a second one
      have hnot : (name', j) ∉ members := by
        intro hmem
        simp only [Once, List.map_cons, List.filter_cons, hname, decide_true, if_true,
          List.nodup_cons, List.mem_filter, List.mem_map, Prod.exists] at once
        exact once.1 ⟨⟨name', j, hmem, rfl⟩, trivial⟩
      simp [member?_cons, hnot, eq_comm]
    -- another name: the member is among the rest
    · have hrest : Once names members := by
        simp only [Once, List.map_cons, List.filter_cons] at once
        split at once
        · exact once.of_cons
        · exact once
      have hne : ¬name = name' := fun h => hk h.symm
      simpa [member?_cons, hk, hne] using ih hrest

/-- The members of a map, each name of which is there once. -/
theorem member?_eq_some_of_nodup {members : List (String × Json)} {name : String} {j : Json}
    (hnodup : (members.map Prod.fst).Nodup) :
    member? members name = some j ↔ (name, j) ∈ members := by
  have once : Once [name] members := hnodup.filter _
  exact member?_eq_some_iff once List.mem_cons_self

/-- Objects that differ in the order of their members, and in members that are no fields. -/
theorem Similar.of_perm {fields : List (String × Shape)} {members members' : List (String × Json)}
    (once : Once (fields.map Prod.fst) members)
    (hperm : (members.filter fun e => e.1 ∈ fields.map Prod.fst).Perm
      (members'.filter fun e => e.1 ∈ fields.map Prod.fst)) :
    Similar (.struct fields) (.object members) (.object members') := by
  -- the same names in another order, so none twice
  have hnames : ((members.map Prod.fst).filter fun name => name ∈ fields.map Prod.fst).Perm
      ((members'.map Prod.fst).filter fun name => name ∈ fields.map Prod.fst) := by
    simpa [List.filter_map, Function.comp_def] using hperm.map Prod.fst
  have once' : Once (fields.map Prod.fst) members' := hnames.nodup_iff.mp once
  -- a name has one member in either order
  have hmember : ∀ name ∈ fields.map Prod.fst, member? members name = member? members' name := by
    intro name hname
    refine Option.ext fun j => ?_
    rw [member?_eq_some_iff once hname, member?_eq_some_iff once' hname]
    have hiff := hperm.mem_iff (a := (name, j))
    simpa only [List.mem_filter, hname, decide_true, and_true] using hiff
  apply Similar.struct once once'
  · intro name hname
    rw [hmember name hname]
  · intro name shape j j' hfield hj hj'
    rw [hmember name (List.mem_map_of_mem hfield), hj'] at hj
    cases hj
    exact .refl shape _

/-- A reader tells no similar values apart. -/
def Respects {α : Type} (shape : Shape) (read : Json → Option α) : Prop :=
  ∀ ⦃j j' : Json⦄, Similar shape j j' → read j' = read j

/-- Whatever reads a value whole respects its shape. -/
theorem respects_value {α : Type} (read : Json → Option α) : Respects .value read := by
  intro j j' h
  rw [h.eq_of_value]

/-- Only null is similar to null. -/
theorem Similar.null_iff {shape : Shape} {j j' : Json} (h : Similar shape j j') :
    j' = null ↔ j = null := by
  cases h with
  | refl => rfl
  | struct => simp
  | map => simp

/-- Reading a field that may be missing respects its shape. -/
theorem Respects.bind_eq {α : Type} {shape : Shape} {read : Json → Option α}
    (hread : Respects shape read) {field field' : Option Json}
    (h : SimilarField shape field field') : field'.bind read = field.bind read := by
  cases h with
  | missing => rfl
  | present hsimilar => exact hread hsimilar

/-- Reading a field with a default respects its shape. -/
theorem Respects.elim_eq {α : Type} {shape : Shape} {read : Json → Option α}
    (hread : Respects shape read) (default : Option α) {field field' : Option Json}
    (h : SimilarField shape field field') :
    field'.elim default read = field.elim default read := by
  cases h with
  | missing => rfl
  | present hsimilar => exact hread hsimilar

/-- What is similar to a map, each name of which is there once, is one. -/
theorem Similar.members {shape : Shape} {members : List (String × Json)} {j : Json}
    (hnodup : (members.map Prod.fst).Nodup) (h : Similar (.map shape) (object members) j) :
    ∃ members', j = object members' ∧ (members'.map Prod.fst).Nodup ∧
      ∀ name, SimilarField shape (member? members name) (member? members' name) := by
  cases h with
  | refl => exact ⟨members, rfl, hnodup, fun name => .refl shape _⟩
  | @map _ _ members' _ once' present similar =>
    exact ⟨members', rfl, once', fun name => .of_members (present name) (similar name)⟩

end Json

/-! ## Reading -/

namespace Serde.Documented

variable {serde : Serde} {α κ ν : Type}

/-- An optional value is read with the respect of its reader. -/
theorem respects_option (h : serde.Documented) {shape : Shape} {read : Json → Option α}
    (hread : Respects shape read) : Respects shape (serde.readOption read) := by
  intro j j' hsimilar
  by_cases hnull : j = null
  · rw [hsimilar.null_iff.mpr hnull, hnull]
  · have hnull' : j' ≠ null := fun hj' => hnull (hsimilar.null_iff.mp hj')
    rw [h.readOption_some read j hnull, h.readOption_some read j' hnull', hread hsimilar]

/-- An option is read back where its values are, and none of them is written as `null`. -/
theorem readOption_written (h : serde.Documented) {read : Json → Option α} {write : α → Json}
    (hread : ∀ a, read (write a) = some a) (hnull : ∀ a, write a ≠ null) (o : Option α) :
    serde.readOption read (serde.writeOption write o) = some o := by
  rw [h.writeOption]
  cases o with
  | none => exact h.readOption_null read
  | some a =>
    show serde.readOption read (write a) = _
    rw [h.readOption_some read _ (hnull a), hread a]
    rfl

/-- A struct is read alike from similar values if its fields are. -/
theorem respects_struct (h : serde.Documented) {shapes : List (String × Shape)}
    {make : Fields → Option α}
    (hmake : ∀ f f' : Fields,
      (∀ name shape, (name, shape) ∈ shapes → SimilarField shape (f name) (f' name)) →
      make f' = make f) :
    Respects (.struct shapes) (serde.readStruct (shapes.map Prod.fst) make) := by
  intro j j' hsimilar
  cases hsimilar with
  | refl => rfl
  | @struct _ members members' once once' present similar =>
    rw [h.readStruct _ make _ once, h.readStruct _ make _ once']
    apply hmake
    intro name shape hmem
    exact .of_members (present name (List.mem_map_of_mem hmem)) fun k k' =>
      similar name shape k k' hmem

/-- The same where every field is looked at as a whole. -/
theorem respects_values (h : serde.Documented) {names : List String} {make : Fields → Option α}
    (hmake : ∀ f f' : Fields, (∀ name ∈ names, f' name = f name) → make f' = make f) :
    Respects (.struct (names.map fun name => (name, .value))) (serde.readStruct names make) := by
  have hnames : (names.map fun name => (name, Shape.value)).map Prod.fst = names := by
    simp [Function.comp_def]
  have hrespects : Respects (.struct (names.map fun name => (name, .value)))
      (serde.readStruct ((names.map fun name => (name, Shape.value)).map Prod.fst) make) := by
    refine h.respects_struct fun f f' hfield => hmake f f' fun name hname => ?_
    exact (hfield name .value (List.mem_map.mpr ⟨name, hname, rfl⟩)).eq_of_value
  rwa [hnames] at hrespects

/-- The fields of a value that is similar to an object. -/
theorem readStruct_similar (h : serde.Documented) {shapes : List (String × Shape)}
    {members : List (String × Json)} {j : Json} (once : Once (shapes.map Prod.fst) members)
    (hsimilar : Similar (.struct shapes) (object members) j) :
    ∃ f : Fields, (∀ name shape, (name, shape) ∈ shapes →
      SimilarField shape (member? members name) (f name)) ∧
      ∀ make : Fields → Option α, serde.readStruct (shapes.map Prod.fst) make j = make f := by
  cases hsimilar with
  | refl =>
    exact ⟨member? members, fun name shape _ => .refl shape _,
      fun make => h.readStruct _ make _ once⟩
  | @struct _ _ members' _ once' present similar =>
    refine ⟨member? members', fun name shape hmem => ?_, fun make => h.readStruct _ make _ once'⟩
    exact .of_members (present name (List.mem_map_of_mem hmem)) fun k k' =>
      similar name shape k k' hmem

/-- A map is read back from what is similar to what was written for it. -/
theorem readMap_written (h : serde.Documented) [DecidableEq κ] (key : String ≃ κ) {shape : Shape}
    {read : Json → Option ν} {write : ν → Json} (hread : Respects shape read) {m : AssocMap κ ν}
    (hback : ∀ e ∈ m.entries, read (write e.2) = some e.2) {j : Json}
    (hsimilar : Similar (.map shape) (serde.writeMap key write m) j) :
    ∃ m', serde.readMap key read j = some m' ∧ ∀ k, m'.get? k = m.get? k := by
  -- the members that were written: distinct names, and values that read back
  rw [h.writeMap] at hsimilar
  generalize hwritten : m.entries.map (fun e => (key.symm e.1, write e.2)) = members at hsimilar
  have hnodup : (members.map Prod.fst).Nodup := by
    rw [← hwritten, List.map_map]
    simpa [Function.comp_def] using m.nodup.map key.symm.injective
  have hall : ∀ e ∈ members, (read e.2).isSome := by
    intro e he
    rw [← hwritten] at he
    obtain ⟨e, hmem, rfl⟩ := List.mem_map.mp he
    rw [hback e hmem]
    rfl
  -- what is read has the same members up to their order and shape
  obtain ⟨members', rfl, hnodup', hfield⟩ := hsimilar.members hnodup
  -- so that every one of them can be read
  have hall' : ∀ e ∈ members', (read e.2).isSome := by
    rintro ⟨name, k'⟩ he
    have hk' : member? members' name = some k' := (member?_eq_some_of_nodup hnodup').mpr he
    have hsame := hread.bind_eq (hfield name)
    rw [hk', Option.bind_some] at hsame
    cases hk : member? members name with
    | none =>
      have hmissing := hfield name
      rw [hk, hk'] at hmissing
      cases hmissing
    | some k =>
      rw [hk, Option.bind_some] at hsame
      rw [hsame]
      exact hall _ ((member?_eq_some_of_nodup hnodup).mp hk)
  obtain ⟨m', hm', hget⟩ := h.readMap key read members' hnodup' hall'
  refine ⟨m', hm', fun k => Option.ext fun v => ?_⟩
  rw [hget k, hread.bind_eq (hfield _), Option.bind_eq_some_iff, AssocMap.get?_eq_some_iff]
  -- an entry that is read was written, and one that was written is read
  constructor
  · rintro ⟨j, hj, hv⟩
    have hmem := (member?_eq_some_of_nodup hnodup).mp hj
    rw [← hwritten] at hmem
    obtain ⟨⟨k', v'⟩, he, hej⟩ := List.mem_map.mp hmem
    simp only [Prod.mk.injEq, EmbeddingLike.apply_eq_iff_eq] at hej
    obtain ⟨rfl, rfl⟩ := hej
    rw [hback _ he] at hv
    cases hv
    exact he
  · intro he
    refine ⟨write v, (member?_eq_some_of_nodup hnodup).mpr ?_, hback _ he⟩
    rw [← hwritten]
    exact List.mem_map.mpr ⟨_, he, rfl⟩

end Serde.Documented

/-! ## A serde -/

namespace Serde

variable {κ ν : Type} [DecidableEq κ]

/-- The entries of a map, the last of several members of a name counts. -/
def plainMap (key : String ≃ κ) (read : Json → Option ν) : Json → Option (AssocMap κ ν)
  | object members =>
    members.foldlM (fun m e => (read e.2).map fun v => m.insert (key e.1) v) .empty
  | _ => none

/-- What is read of the members after what was read of those before them. -/
theorem foldlM_members (key : String ≃ κ) (read : Json → Option ν) {members : List (String × Json)}
    (hnodup : (members.map Prod.fst).Nodup) (hread : ∀ e ∈ members, (read e.2).isSome)
    (m : AssocMap κ ν) :
    ∃ m', members.foldlM (fun m e => (read e.2).map fun v => m.insert (key e.1) v) m = some m' ∧
      ∀ k, m'.get? k = ((member? members (key.symm k)).bind read).or (m.get? k) := by
  induction members generalizing m with
  | nil => exact ⟨m, rfl, fun k => rfl⟩
  | cons e members ih =>
    obtain ⟨name, j⟩ := e
    simp only [List.map_cons, List.nodup_cons] at hnodup
    obtain ⟨v, hv⟩ := Option.isSome_iff_exists.mp (hread _ List.mem_cons_self)
    obtain ⟨m', hm', hget⟩ := ih hnodup.2 (fun e he => hread e (List.mem_cons_of_mem _ he))
      (m.insert (key name) v)
    refine ⟨m', by simpa [List.foldlM_cons, hv] using hm', fun k => ?_⟩
    rw [hget k, AssocMap.get?_insert]
    by_cases hk : k = key name
    · -- no later member has the name
      subst hk
      have hlater : member? members name = none := by
        rw [Option.eq_none_iff_forall_not_mem]
        intro j' hj'
        exact hnodup.1 (List.mem_map_of_mem ((member?_eq_some_of_nodup hnodup.2).mp hj'))
      simp [member?_cons, hlater, hv]
    -- another key is read from the rest
    · have hne : ¬name = key.symm k := fun h => hk (by simp [h])
      simp [member?_cons, hk, hne]

/-- A serde that keeps to its documentation, for the texts that `parse` knows. -/
def plain (parse : String → Option Json) : Serde where
  parse := parse
  readString
    | string s => some s
    | _ => none
  readBool
    | Json.bool b => some b
    | _ => none
  readU16
    | natural n => if n.toNat < 65536 then some (UInt16.ofNat n.toNat) else none
    | _ => none
  readU64
    | natural n => some n
    | _ => none
  readOption read
    | null => some none
    | j => (read j).map some
  readUnitEnum variant
    | string s => variant s
    | object [(s, null)] => variant s
    | _ => none
  readMap := plainMap
  readStruct names make
    | object members => if Once names members then make (member? members) else none
    | _ => none
  required name read fields := (fields name).bind read
  defaulted name default read fields := (fields name).elim (some default) read
  optional name read fields :=
    match fields name with
    | none | some null => some none
    | some j => (read j).map some
  writeOption write o := o.elim null write
  writeMap key write m := object (m.entries.map fun e => (key.symm e.1, write e.2))
  writeStruct := object

/-- The plain reader and writer obey the documented laws. -/
theorem plain_documented (parse : String → Option Json) : (plain parse).Documented where
  readString _ := rfl
  readBool _ := rfl
  readU16 n := by
    have hlt : n.toNat < 65536 := n.toNat_lt
    simp [plain, hlt]
  readU64 _ := rfl
  readOption_null _ := rfl
  readOption_some read j hj := by
    cases j with
    | null => exact absurd rfl hj
    | _ => rfl
  readUnitEnum _ _ := rfl
  -- the members are read one after the other
  readMap key read members hnodup hread := by
    obtain ⟨m, hm, hget⟩ := foldlM_members key read hnodup hread .empty
    refine ⟨m, hm, fun k => ?_⟩
    rw [hget k]
    exact Option.or_none
  readStruct _ _ _ once := if_pos once
  required _ _ _ := rfl
  defaulted _ _ _ _ := rfl
  optional name read fields := by
    cases hf : fields name with
    | none => simp [plain, hf]
    | some j => cases j <;> simp [plain, hf]
  writeOption _ _ := rfl
  writeMap _ _ _ := rfl
  writeStruct _ := rfl

end Serde
