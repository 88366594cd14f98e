set_option autoImplicit false

namespace Dialogue

variable {α : Type} {β : Type}

namespace Table

/-- Every name is below the names that follow it. -/
abbrev Ascending (entries : List (String × α)) : Prop :=
  entries.Pairwise fun left right => left.1 < right.1

end Table

/-- Values under names, in ascending order of the names, so that two tables with the same entries
are equal. -/
structure Table (α : Type) where
  entries : List (String × α)
  ascending : Table.Ascending entries

namespace Table

theorem ext {a b : Table α} (same : a.entries = b.entries) : a = b := by
  cases a
  cases b
  cases same
  rfl

def empty : Table α :=
  ⟨[], .nil⟩

instance : Inhabited (Table α) :=
  ⟨empty⟩

instance : EmptyCollection (Table α) :=
  ⟨empty⟩

def isEmpty (t : Table α) : Bool :=
  t.entries.isEmpty

def size (t : Table α) : Nat :=
  t.entries.length

def names (t : Table α) : List String :=
  t.entries.map (·.1)

def lookup (name : String) : List (String × α) → Option α
  | [] => none
  | (other, value) :: rest => if name = other then some value else lookup name rest

def get? (t : Table α) (name : String) : Option α :=
  lookup name t.entries

def contains (t : Table α) (name : String) : Bool :=
  (t.get? name).isSome

/-- The entries with `value` under `name`, at the place that the order gives it. -/
def place (name : String) (value : α) : List (String × α) → List (String × α)
  | [] => [(name, value)]
  | (other, kept) :: rest =>
      if name < other then (name, value) :: (other, kept) :: rest
      else if name = other then (name, value) :: rest
      else (other, kept) :: place name value rest

theorem mem_place {name : String} {value : α} {entries : List (String × α)} {e : String × α}
    (member : e ∈ place name value entries) : e = (name, value) ∨ e ∈ entries := by
  induction entries with
  | nil => exact .inl (List.mem_singleton.mp member)
  | cons head rest ih =>
      obtain ⟨other, kept⟩ := head
      simp only [place] at member
      split at member
      · exact List.mem_cons.mp member
      · split at member
        · rcases List.mem_cons.mp member with same | inside
          · exact .inl same
          · exact .inr (List.mem_cons_of_mem _ inside)
        · rcases List.mem_cons.mp member with rfl | inside
          · exact .inr List.mem_cons_self
          · exact (ih inside).imp_right (List.mem_cons_of_mem _)

theorem lt_of_not_lt_of_ne {a b : String} (notBelow : ¬a < b) (differ : a ≠ b) : b < a := by
  rcases Decidable.em (b < a) with below | notAbove
  · exact below
  · exact absurd (String.le_antisymm (String.not_lt.mp notAbove) (String.not_lt.mp notBelow)) differ

theorem place_ascending (name : String) (value : α) {entries : List (String × α)}
    (ascending : Ascending entries) : Ascending (place name value entries) := by
  induction entries with
  | nil => simp [place, Ascending]
  | cons head rest ih =>
      obtain ⟨other, kept⟩ := head
      obtain ⟨above, ascendingRest⟩ := List.pairwise_cons.mp ascending
      simp only [place]
      split
      · rename_i below
        refine List.pairwise_cons.mpr ⟨?_, ascending⟩
        intro e member
        rcases List.mem_cons.mp member with rfl | inside
        · exact below
        · exact String.lt_trans below (above e inside)
      · rename_i notBelow
        split
        · rename_i same
          subst same
          exact List.pairwise_cons.mpr ⟨above, ascendingRest⟩
        · rename_i differ
          refine List.pairwise_cons.mpr ⟨?_, ih ascendingRest⟩
          intro e member
          rcases mem_place member with rfl | inside
          · exact lt_of_not_lt_of_ne notBelow differ
          · exact above e inside

/-- Puts `value` under `name`, in place of a value that is there already. -/
def insert (t : Table α) (name : String) (value : α) : Table α :=
  ⟨place name value t.entries, place_ascending name value t.ascending⟩

def erase (t : Table α) (name : String) : Table α :=
  ⟨t.entries.filter fun e => e.1 != name, t.ascending.filter _⟩

/-- Later entries win. -/
def ofList (entries : List (String × α)) : Table α :=
  entries.foldl (fun t e => t.insert e.1 e.2) empty

def map (f : α → β) (t : Table α) : Table β :=
  ⟨t.entries.map fun e => (e.1, f e.2), by
    rw [Ascending, List.pairwise_map]
    exact t.ascending⟩

/-- Whether two tables list the same names with values that `same` accepts. -/
def beqWith (same : α → α → Bool) (a b : Table α) : Bool :=
  go a.entries b.entries
where
  go : List (String × α) → List (String × α) → Bool
    | [], [] => true
    | (m, v) :: rest, (n, w) :: others => m == n && same v w && go rest others
    | _, _ => false

instance [BEq α] : BEq (Table α) :=
  ⟨beqWith (· == ·)⟩

theorem lookup_place_self (name : String) (value : α) (entries : List (String × α)) :
    lookup name (place name value entries) = some value := by
  induction entries with
  | nil => simp [place, lookup]
  | cons head rest ih =>
      obtain ⟨other, kept⟩ := head
      simp only [place]
      split
      · simp [lookup]
      · split
        · simp [lookup]
        · rename_i differ
          simp only [lookup, if_neg differ]
          exact ih

theorem lookup_place_of_ne {name query : String} (value : α) (entries : List (String × α))
    (differ : query ≠ name) : lookup query (place name value entries) = lookup query entries := by
  induction entries with
  | nil => simp [place, lookup, differ]
  | cons head rest ih =>
      obtain ⟨other, kept⟩ := head
      simp only [place]
      split
      · simp [lookup, differ]
      · split
        · rename_i same
          subst same
          simp [lookup, differ]
        · simp only [lookup, ih]

@[simp]
theorem get?_insert_self (t : Table α) (name : String) (value : α) :
    (t.insert name value).get? name = some value :=
  lookup_place_self name value t.entries

theorem get?_insert_of_ne (t : Table α) {name query : String} (value : α) (differ : query ≠ name) :
    (t.insert name value).get? query = t.get? query :=
  lookup_place_of_ne value t.entries differ

@[simp]
theorem get?_erase_self (t : Table α) (name : String) : (t.erase name).get? name = none := by
  show lookup name (t.entries.filter fun e => e.1 != name) = none
  induction t.entries with
  | nil => rfl
  | cons head rest ih =>
      by_cases same : head.1 = name
      · simpa [same] using ih
      · simp [same, lookup, Ne.symm same, ih]

theorem get?_erase_of_ne (t : Table α) {name query : String} (differ : query ≠ name) :
    (t.erase name).get? query = t.get? query := by
  show lookup query (t.entries.filter fun e => e.1 != name) = lookup query t.entries
  induction t.entries with
  | nil => rfl
  | cons head rest ih =>
      by_cases same : head.1 = name
      · simp [same, lookup, differ, ih]
      · simp [same, lookup, ih]

theorem lookup_of_lt {name : String} {entries : List (String × α)}
    (below : ∀ e ∈ entries, name < e.1) : lookup name entries = none := by
  induction entries with
  | nil => rfl
  | cons head rest ih =>
      obtain ⟨first, later⟩ := List.forall_mem_cons.mp below
      rw [lookup, if_neg (String.ne_of_lt first)]
      exact ih later

theorem get?_of_mem {t : Table α} {name : String} {value : α}
    (member : (name, value) ∈ t.entries) : t.get? name = some value := by
  obtain ⟨entries, ascending⟩ := t
  unfold get?
  dsimp only at member ⊢
  induction entries with
  | nil => cases member
  | cons head rest ih =>
      obtain ⟨above, ascendingRest⟩ := List.pairwise_cons.mp ascending
      rw [lookup]
      rcases List.mem_cons.mp member with rfl | inside
      · exact if_pos rfl
      · rw [if_neg (String.ne_of_lt (above _ inside)).symm]
        exact ih ascendingRest inside

theorem mem_of_get? {t : Table α} {name : String} {value : α}
    (found : t.get? name = some value) : (name, value) ∈ t.entries := by
  unfold get? at found
  generalize t.entries = entries at found ⊢
  induction entries with
  | nil => cases found
  | cons head rest ih =>
      obtain ⟨other, kept⟩ := head
      unfold lookup at found
      split at found
      · rename_i same
        rw [same, Option.some.inj found]
        exact List.mem_cons_self
      · exact List.mem_cons_of_mem _ (ih found)

theorem contains_iff {t : Table α} {name : String} : t.contains name = true ↔ name ∈ t.names := by
  rw [contains, Option.isSome_iff_exists]
  constructor
  · rintro ⟨value, found⟩
    exact List.mem_map_of_mem (mem_of_get? found)
  · intro listed
    obtain ⟨entry, member, rfl⟩ := List.mem_map.mp listed
    exact ⟨entry.2, get?_of_mem member⟩

theorem mem_of_mem_ofList {entries : List (String × α)} {e : String × α}
    (member : e ∈ (ofList entries).entries) : e ∈ entries := by
  have gathered : ∀ (rest : List (String × α)) (t : Table α),
      e ∈ (rest.foldl (fun t e => t.insert e.1 e.2) t).entries → e ∈ t.entries ∨ e ∈ rest := by
    intro rest
    induction rest with
    | nil => exact fun t member => .inl member
    | cons head rest ih =>
        intro t member
        rcases ih (t.insert head.1 head.2) member with placed | inside
        · rcases mem_place placed with rfl | kept
          · exact .inr List.mem_cons_self
          · exact .inl kept
        · exact .inr (List.mem_cons_of_mem _ inside)
  rcases gathered entries empty member with none | inside
  · cases none
  · exact inside

/-- A name above all others goes to the end. -/
theorem place_of_above {name : String} (value : α) {entries : List (String × α)}
    (above : ∀ e ∈ entries, e.1 < name) :
    place name value entries = entries ++ [(name, value)] := by
  induction entries with
  | nil => rfl
  | cons head rest ih =>
      obtain ⟨first, later⟩ := List.forall_mem_cons.mp above
      have apart : name ≠ head.1 := (String.ne_of_lt first).symm
      have behind : ¬name < head.1 := fun before =>
        String.lt_irrefl _ (String.lt_trans first before)
      simp only [place, if_neg behind, if_neg apart, ih later, List.cons_append]

/-- A table is made of its entries. -/
theorem ofList_entries (t : Table α) : ofList t.entries = t := by
  have grown : ∀ (rest : List (String × α)) (front : Table α),
      Ascending (front.entries ++ rest) →
        (rest.foldl (fun t e => t.insert e.1 e.2) front).entries = front.entries ++ rest := by
    intro rest
    induction rest with
    | nil => exact fun front _ => (List.append_nil _).symm
    | cons head rest ih =>
        intro front ascending
        have split := List.pairwise_append.mp ascending
        have placed : (front.insert head.1 head.2).entries = front.entries ++ [head] :=
          place_of_above head.2 fun e member => split.2.2 e member head List.mem_cons_self
        rw [List.foldl_cons, ih, placed, List.append_assoc]
        · rfl
        · rw [placed, List.append_assoc]
          exact ascending
  exact ext (grown t.entries empty t.ascending)

end Table

end Dialogue
