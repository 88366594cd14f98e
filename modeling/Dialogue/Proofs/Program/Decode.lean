import Dialogue.Program.Ron
import Dialogue.Proofs.Ron.ReadBack
import Mathlib.Data.List.Forall2

set_option autoImplicit false

namespace Dialogue

namespace Ron

mutual

/-- How many levels reading a value takes. A variant takes a level of its own, and so does the name
of one. -/
def readDepth : Ron → Nat
  | .present v => v.readDepth + 1
  | .list items => readDepthItems items + 1
  | .map entries => readDepthEntries entries + 1
  | .tuple _ items => readDepthItems items + 1
  | .record name fields => readDepthFields fields + if name.isEmpty then 1 else 2
  | .word _ => 2
  | .unit | .bool _ | .number _ | .text _ | .char _ | .bytes _ | .absent => 0

def readDepthItems : List Ron → Nat
  | [] => 0
  | item :: rest => max (item.readDepth + 1) (readDepthItems rest)

def readDepthEntries : List (Ron × Ron) → Nat
  | [] => 0
  | (key, value) :: rest =>
      max (max key.readDepth value.readDepth + 1) (readDepthEntries rest)

def readDepthFields : List (List Char × Ron) → Nat
  | [] => 0
  | (_, value) :: rest => max (value.readDepth + 1) (readDepthFields rest)

end

mutual

/-- What can be read can be written. -/
theorem writeDepth_le_readDepth : ∀ v : Ron, v.depth 0 ≤ v.readDepth
  | .present v => Nat.succ_le_succ (writeDepth_le_readDepth v)
  | .list items => by
      show 0 + depthItems 0 items ≤ readDepthItems items + 1
      have := depthItems_le_readDepthItems items
      omega
  | .map entries => by
      show 0 + depthEntries 0 entries ≤ readDepthEntries entries + 1
      have := depthEntries_le_readDepthEntries entries
      omega
  | .tuple name items => by
      show 0 + depthItems 0 items ≤ readDepthItems items + 1
      have := depthItems_le_readDepthItems items
      omega
  | .record name fields => by
      show 0 + depthFields 0 fields ≤ readDepthFields fields + if name.isEmpty then 1 else 2
      have := depthFields_le_readDepthFields fields
      omega
  | .word name => Nat.zero_le 2
  | .unit => Nat.le_refl 0
  | .bool value => Nat.le_refl 0
  | .number literal => Nat.le_refl 0
  | .text value => Nat.le_refl 0
  | .char value => Nat.le_refl 0
  | .bytes value => Nat.le_refl 0
  | .absent => Nat.le_refl 0

theorem depthItems_le_readDepthItems :
    ∀ items : List Ron, depthItems 0 items ≤ readDepthItems items
  | [] => Nat.le_refl 0
  | item :: rest => by
      show max (item.depth 0 + 1) (depthItems 0 rest) ≤
        max (item.readDepth + 1) (readDepthItems rest)
      have first := writeDepth_le_readDepth item
      have others := depthItems_le_readDepthItems rest
      omega

theorem depthEntries_le_readDepthEntries :
    ∀ entries : List (Ron × Ron), depthEntries 0 entries ≤ readDepthEntries entries
  | [] => Nat.le_refl 0
  | (key, value) :: rest => by
      show max (max (key.depth 0) (value.depth 0) + 1) (depthEntries 0 rest) ≤
        max (max key.readDepth value.readDepth + 1) (readDepthEntries rest)
      have key_le := writeDepth_le_readDepth key
      have value_le := writeDepth_le_readDepth value
      have others := depthEntries_le_readDepthEntries rest
      omega

theorem depthFields_le_readDepthFields :
    ∀ fields : List (List Char × Ron), depthFields 0 fields ≤ readDepthFields fields
  | [] => Nat.le_refl 0
  | (_, value) :: rest => by
      show max (value.depth 0 + 1) (depthFields 0 rest) ≤
        max (value.readDepth + 1) (readDepthFields rest)
      have first := writeDepth_le_readDepth value
      have others := depthFields_le_readDepthFields rest
      omega

end

end Ron

namespace Program

open Ron (Reads readDepth readDepthItems readDepthEntries readDepthFields)

section Takes

variable {α β : Type} {bound need : Nat}

/-- Below `bound` levels, what is read is `a` if at least `need` levels may still nest, and cannot
be read if not. -/
def Takes (bound need : Nat) (decode : Reading → Option α) (a : α) : Prop :=
  ∀ room < bound, decode ⟨room, .initial⟩ = if need ≤ room then some a else none

theorem Takes.pure (a : α) : Takes bound 0 (fun _ => some a) a :=
  fun room _ => (if_pos (Nat.zero_le room)).symm

theorem Takes.map {decode : Reading → Option α} {a : α} (takes : Takes bound need decode a)
    (f : α → β) : Takes bound need (fun r => (decode r).map f) (f a) := by
  intro room below
  dsimp only
  rw [takes room below]
  split <;> rfl

theorem Takes.bind {first : Reading → Option α} {second : α → Reading → Option β} {more : Nat}
    {a : α} {b : β} (takes : Takes bound need first a) (later : Takes bound more (second a) b) :
    Takes bound (max need more) (fun r => first r >>= fun x => second x r) b := by
  intro room below
  dsimp only
  rw [takes room below]
  by_cases enough : need ≤ room
  · rw [if_pos enough]
    show second a ⟨room, .initial⟩ = _
    rw [later room below]
    simp only [Nat.max_le, enough, true_and]
  · have short : ¬max need more ≤ room := fun both => enough (Nat.max_le.mp both).1
    rw [if_neg enough, if_neg short]
    rfl

theorem Takes.bind_pure {first : Reading → Option α} {a : α} (takes : Takes bound need first a)
    (f : α → β) : Takes bound need (fun r => first r >>= fun x => Pure.pure (f x)) (f a) := by
  have all : Takes bound (max need 0) (fun r => first r >>= fun x => Pure.pure (f x)) (f a) :=
    takes.bind (.pure (f a))
  rw [Nat.max_zero] at all
  exact all

/-- One level down, one level less may nest. -/
theorem Takes.descend {decode : Reading → Option α} {a : α} (takes : Takes bound need decode a) :
    Takes (bound + 1) (need + 1) (nested? decode) a := by
  intro room below
  unfold nested?
  cases room with
  | zero => rfl
  | succ room =>
      dsimp only
      rw [takes room (by omega)]
      simp only [Nat.add_le_add_iff_right]

theorem Takes.mono {decode : Reading → Option α} {a : α} {less : Nat} (le : less ≤ bound)
    (takes : Takes bound need decode a) : Takes less need decode a :=
  fun room below => takes room (by omega)

theorem Takes.nested {decode : Reading → Option α} {a : α} (takes : Takes bound need decode a) :
    Takes bound (need + 1) (nested? decode) a :=
  takes.descend.mono (Nat.le_succ bound)

/-- What is written as `v` is read back from its text and decoded as `a`. -/
structure Stores (bound : Nat) (decode : Decoder α) (v : Ron) (a : α) : Prop where
  reads : Reads v
  takes : Takes bound v.readDepth (fun r => decode r v) a

theorem Stores.mono {decode : Decoder α} {v : Ron} {a : α} {less : Nat} (le : less ≤ bound)
    (stores : Stores bound decode v a) : Stores less decode v a :=
  ⟨stores.reads, stores.takes.mono le⟩

end Takes

section Values

variable {α : Type} {bound : Nat} {decode : Decoder α}

theorem stores_text (s : String) : Stores bound text? (ronText s) s where
  reads := Ron.reads_text s.toList
  takes := by
    have whole : String.ofList s.toList = s := String.ofList_toList
    intro room below
    show some (String.ofList s.toList) = _
    rw [whole]
    exact Takes.pure s room below

theorem stores_bool (b : Bool) : Stores bound bool? (.bool b) b where
  reads := Ron.reads_bool b
  takes := .pure b

theorem stores_nat {n : Nat} (small : n < Nat.pow 2 64) : Stores bound natural? (ronNat n) n where
  reads := by
    have digits : Ron.InDigits (Nat.toDigits 10 n) :=
      Ron.inDigits_of_isDigit Nat.toDigits_ne_nil fun c => Ron.isDigit_of_mem_toDigits
    have number := Ron.number?_toDigits small
    apply Ron.reads_digits digits
    cases known : Ron.number? (Nat.toDigits 10 n) with
    | none =>
        rw [known] at number
        cases number
    | some _ => rfl
  takes := by
    intro room below
    show (Ron.number? (Nat.toDigits 10 n)).bind Ron.Number.toNat? = _
    rw [Ron.number?_toDigits small]
    exact Takes.pure n room below

theorem stores_option {f : α → Ron} (o : Option α)
    (each : ∀ a ∈ o, Stores bound decode (f a) a) :
    Stores bound (option? decode) (ronOption (o.map f)) o := by
  cases o with
  | none => exact ⟨Ron.reads_absent, .pure none⟩
  | some a =>
      have inner := each a rfl
      exact ⟨Ron.reads_present inner.reads, inner.takes.nested.map some⟩

theorem takes_items {items : List Ron} {values : List α}
    (each : List.Forall₂ (Stores bound decode) items values) :
    Takes bound (readDepthItems items)
      (fun r => items.mapM fun v => nested? (fun r => decode r v) r) values := by
  induction each with
  | nil => exact .pure []
  | @cons item value _ _ first _ ih =>
      simp only [List.mapM_cons]
      exact first.takes.nested.bind (ih.bind_pure (value :: ·))

theorem stores_list {items : List Ron} {values : List α}
    (each : List.Forall₂ (Stores bound decode) items values) :
    Stores bound (list? decode) (.list items) values where
  reads := by
    apply Ron.reads_list
    induction each with
    | nil => exact List.forall_mem_nil _
    | cons first _ ih => exact List.forall_mem_cons.mpr ⟨first.reads, ih⟩
  takes := (takes_items each).nested

theorem stores_map {f : α → Ron} {values : List α}
    (each : ∀ a ∈ values, Stores bound decode (f a) a) :
    Stores bound (list? decode) (.list (values.map f)) values := by
  apply stores_list
  rw [List.forall₂_map_left_iff, List.forall₂_same]
  exact each

theorem stores_texts (texts : List String) : Stores bound (list? text?) (ronTexts texts) texts :=
  stores_map fun s _ => stores_text s

theorem takes_entries {f : α → Ron} {entries : List (String × α)}
    (each : ∀ e ∈ entries, Stores bound decode (f e.2) e.2) :
    Takes bound (readDepthEntries (entries.map fun e => (ronText e.1, f e.2)))
      (fun r => (entries.map fun e => (ronText e.1, f e.2)).mapM fun (key, value) =>
        nested? (fun r => do
          let name ← text? r key
          let v ← decode r value
          return (name, v)) r) entries := by
  induction entries with
  | nil => exact .pure []
  | cons e rest ih =>
      obtain ⟨first, others⟩ := List.forall_mem_cons.mp each
      simp only [List.map_cons, List.mapM_cons]
      have entry : Takes bound (max 0 (f e.2).readDepth) (fun r => do
          let name ← text? r (ronText e.1)
          let v ← decode r (f e.2)
          return (name, v)) e :=
        (stores_text e.1).takes.bind (first.takes.bind_pure (Prod.mk e.1))
      exact entry.nested.bind ((ih others).bind_pure (e :: ·))

/-- A table is put together again from its entries. -/
theorem stores_table {f : α → Ron} {t : Table α}
    (each : ∀ e ∈ t.entries, Stores bound decode (f e.2) e.2) :
    Stores bound (table? decode) (ronTable f t) t where
  reads := by
    apply Ron.reads_map
    intro entry listed
    obtain ⟨e, inside, rfl⟩ := List.mem_map.mp listed
    exact ⟨⟨e.1.toList, rfl⟩, (each e inside).reads⟩
  takes := by
    have all := (takes_entries each).nested.map Table.ofList
    rw [Table.ofList_entries] at all
    exact all

end Values

section Structures

variable {α β : Type} {bound need : Nat} {decode : Decoder α} {fields : List (String × Ron)}
  {name : String} {v : Ron} {a : α}

/-- Fields as they are written. -/
def named (fields : List (String × Ron)) : RonFields :=
  fields.map fun f => (f.1.toList, f.2)

theorem filter_named (fields : List (String × Ron)) (name : String) :
    ((named fields).filter fun f => f.1 = name.toList) =
      named (fields.filter fun f => f.1 = name) := by
  unfold named
  rw [List.filter_map]
  congr 1
  apply List.filter_congr
  intro f _
  simp only [Function.comp, String.toList_inj]

theorem takes_required (found : (fields.filter fun f => f.1 = name) = [(name, v)])
    (stores : Stores bound decode v a) :
    Takes bound (v.readDepth + 1) (fun r => required? r (named fields) name decode) a := by
  unfold required?
  rw [filter_named, found]
  exact stores.takes.nested

theorem takes_defaulted (default : α) (found : (fields.filter fun f => f.1 = name) = [(name, v)])
    (stores : Stores bound decode v a) :
    Takes bound (v.readDepth + 1) (fun r => defaulted? r (named fields) name default decode) a := by
  unfold defaulted?
  rw [filter_named, found]
  exact stores.takes.nested

theorem takes_missing (default : α) (missing : (fields.filter fun f => f.1 = name) = []) :
    Takes bound 0 (fun r => defaulted? r (named fields) name default decode) default := by
  unfold defaulted?
  rw [filter_named, missing]
  exact .pure default

section Names

variable {known : List String} {decodeFields : Reading → RonFields → Option α}
  (names : List String) (listing : fields.map (·.1) = names)
  (fine : (names.all fun name => Ron.isName name.toList && known.contains name) = true)

include listing fine

theorem isName_and_known {f : String × Ron} (listed : f ∈ fields) :
    Ron.isName f.1.toList = true ∧ known.contains f.1 = true := by
  have inside : f.1 ∈ names := listing ▸ List.mem_map_of_mem listed
  exact (Bool.and_eq_true _ _).mp (List.all_eq_true.mp fine f.1 inside)

/-- Where every field is known, none is passed over. -/
theorem takes_fields (takes : Takes bound need (fun r => decodeFields r (named fields)) a) :
    Takes (bound + 1) (need + 1) (fields? known decodeFields (named fields)) a := by
  have passes : ∀ r : Reading, ((named fields).all fun f =>
      known.contains (String.ofList f.1) || f.2.skipDepth < r.room) = true := by
    intro r
    rw [List.all_eq_true]
    intro f listed
    obtain ⟨g, inside, rfl⟩ := List.mem_map.mp listed
    rw [String.ofList_toList, (isName_and_known names listing fine inside).2, Bool.true_or]
  unfold fields?
  simp only [passes, if_true]
  exact takes.descend

theorem readsFields_named (nonempty : fields ≠ []) (reads : ∀ f ∈ fields, Reads f.2) :
    Ron.ReadsFields (named fields) where
  nonempty := mt List.map_eq_nil_iff.mp nonempty
  named := by
    intro field listed
    obtain ⟨f, inside, rfl⟩ := List.mem_map.mp listed
    exact (isName_and_known names listing fine inside).1
  reads := by
    intro field listed
    obtain ⟨f, inside, rfl⟩ := List.mem_map.mp listed
    exact reads f inside

variable (nonempty : fields ≠ []) (reads : ∀ f ∈ fields, Reads f.2)
  (takes : Takes bound (readDepthFields (named fields)) (fun r => decodeFields r (named fields)) a)

include nonempty reads takes

/-- A structure is stored if its fields are, and they are decoded in the order in which they are
written. -/
theorem stores_struct_succ :
    Stores (bound + 1) (struct? name known decodeFields) (ronStruct fields) a where
  reads := Ron.reads_struct (readsFields_named names listing fine nonempty reads)
  takes := by
    intro room below
    have allowed : allowsName ⟨room, .initial⟩ name [] = true := by
      simp [allowsName, Ron.Extensions.initial]
    have shape : struct? name known decodeFields ⟨room, .initial⟩ (ronStruct fields) =
        fields? known decodeFields (named fields) ⟨room, .initial⟩ := by
      show (if allowsName ⟨room, .initial⟩ name [] = true then some (named fields) else none).bind
        (fun found => fields? known decodeFields found ⟨room, .initial⟩) = _
      rw [if_pos allowed]
      rfl
    dsimp only
    rw [shape]
    exact takes_fields names listing fine takes room below

theorem stores_struct :
    Stores bound (struct? name known decodeFields) (ronStruct fields) a :=
  (stores_struct_succ names listing fine nonempty reads takes).mono (Nat.le_succ bound)

end Names

end Structures

end Program

end Dialogue
