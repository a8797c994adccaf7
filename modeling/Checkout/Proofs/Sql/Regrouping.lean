import Checkout.Sql.Store
import Mathlib.Data.List.Induction
import Mathlib.Data.List.Nodup

/-!
# Regrouping joined rows

Rows are read one by one into the groups of their orders. Wherever the rows of an order stand among
those of others, its group gets the header of the first of them and the items of all of them, in
their sequence; and the groups stand in the sequence in which their orders first appear
(`foldlM_addRow`, `ordersOfRows_map`).
-/

namespace Checkout.Sql

/-! ## First occurrences -/

section

variable {α β : Type} [DecidableEq α] [DecidableEq β]

theorem eraseDups_append_singleton (l : List α) (a : α) :
    (l ++ [a]).eraseDups = l.eraseDups ++ if a ∈ l then [] else [a] := by
  rw [List.eraseDups_append]
  congr 1
  unfold List.removeAll
  by_cases h : a ∈ l
  · rw [if_pos h, List.filter_cons_of_neg (by simpa using h)]
    rfl
  · rw [if_neg h, List.filter_cons_of_pos (by simpa using h)]
    rfl

theorem nodup_eraseDups (l : List α) : l.eraseDups.Nodup := by
  induction l using List.reverseRecOn with
  | nil => exact List.nodup_nil
  | append_singleton l a ih =>
      rw [eraseDups_append_singleton]
      split
      next => rwa [List.append_nil]
      next h =>
        rw [← List.concat_eq_append]
        exact ih.concat fun hmem => h (List.mem_eraseDups.mp hmem)

/-- First occurrences stay such when different things are given different names. -/
theorem eraseDups_map {f : α → β} (hinj : Function.Injective f) (l : List α) :
    (l.map f).eraseDups = l.eraseDups.map f := by
  induction l using List.reverseRecOn with
  | nil => rfl
  | append_singleton l a ih =>
      rw [List.map_append, List.map_singleton, eraseDups_append_singleton,
        eraseDups_append_singleton, ih, List.map_append]
      simp only [List.mem_map_of_injective hinj]
      split <;> rfl

end

/-! ## Single rows -/

namespace Group

variable {groups : List Group} {r : JoinedCells} {key : String}

/-- A row of an order that has a group adds to this. -/
theorem addRow_of_some (hkey : r.id.text? = some key) {g : Group}
    (hfind : groups.find? (·.key = key) = some g) :
    addRow groups r =
      (readItem? g.order.id r).bind fun item => .ok (addItem key item groups) := by
  unfold addRow
  rw [hkey]
  dsimp only [decoded, bind, Except.bind]
  rw [hfind]
  rfl

/-- The first row of an order opens its group. -/
theorem addRow_of_none (hkey : r.id.text? = some key)
    (hfind : groups.find? (·.key = key) = none) :
    addRow groups r = (readHeader key r).bind fun header =>
      (readItem? header.id r).bind fun item =>
        .ok (groups ++ [⟨key, { header with items := item.toList }⟩]) := by
  unfold addRow
  rw [hkey]
  dsimp only [decoded, bind, Except.bind]
  rw [hfind]
  rfl

end Group

/-! ## Readings -/

/-- What the rows of a join are read as: the text of the order's identifier, its header, and the item
of the row, if it has one. -/
structure Reading (β : Type) where
  key : β → String
  header : String → Header
  item : β → Option Item

namespace Reading

variable {β : Type} (R : Reading β) {cells : β → JoinedCells} {rows : List β} {b : β}

/-- The keys of the rows, in the sequence in which they first appear. -/
def keys (rows : List β) : List String := (rows.map R.key).eraseDups

/-- The items of a key. -/
def items (rows : List β) (key : String) : List Item :=
  (rows.filter (R.key · = key)).filterMap R.item

/-- The order of a key. -/
def order (rows : List β) (key : String) : Order := { R.header key with items := R.items rows key }

/-- The orders of all keys. -/
def orders (rows : List β) : List Order := (R.keys rows).map (R.order rows)

/-- The orders of all keys, each with its key. -/
def groups (rows : List β) : List Group := (R.keys rows).map fun key => ⟨key, R.order rows key⟩

/-- The cells of a row, behind those of the rows before it, are read like this. The header is read
from the first row of an order only. -/
structure Decodes (cells : β → JoinedCells) (before : List β) (b : β) : Prop where
  key : (cells b).id.text? = some (R.key b)
  header : R.key b ∉ before.map R.key → readHeader (R.key b) (cells b) = .ok (R.header (R.key b))
  item : readItem? (R.header (R.key b)).id (cells b) = .ok (R.item b)

theorem mem_keys {key : String} : key ∈ R.keys rows ↔ key ∈ rows.map R.key :=
  List.mem_eraseDups

theorem nodup_keys (rows : List β) : (R.keys rows).Nodup := nodup_eraseDups _

/-! ## One more row -/

theorem keys_append (rows : List β) (b : β) :
    R.keys (rows ++ [b]) =
      R.keys rows ++ if R.key b ∈ rows.map R.key then [] else [R.key b] := by
  unfold keys
  rw [List.map_append]
  exact eraseDups_append_singleton _ _

theorem items_append (rows : List β) (b : β) (key : String) :
    R.items (rows ++ [b]) key =
      R.items rows key ++ if R.key b = key then (R.item b).toList else [] := by
  unfold items
  rw [List.filter_append, List.filterMap_append]
  congr 1
  by_cases h : R.key b = key
  · rw [if_pos h, List.filter_cons_of_pos (by simpa using h)]
    cases hitem : R.item b <;> simp [hitem]
  · rw [if_neg h, List.filter_cons_of_neg (by simpa using h)]
    rfl

theorem find?_groups (key : String) :
    (R.groups rows).find? (·.key = key) =
      if key ∈ rows.map R.key then some ⟨key, R.order rows key⟩ else none := by
  unfold groups
  rw [List.find?_map]
  show Option.map _ ((R.keys rows).find? fun k => decide (k = key)) = _
  split
  next h =>
    obtain ⟨k, hk⟩ := Option.isSome_iff_exists.mp
      (List.find?_isSome (p := fun k => decide (k = key)).mpr
        ⟨key, R.mem_keys.mpr h, decide_eq_true rfl⟩)
    have heq : k = key := by simpa using List.find?_some hk
    rw [hk, heq]
    rfl
  next h =>
    rw [List.find?_eq_none.mpr]
    · rfl
    · intro k hk heq
      exact h (of_decide_eq_true heq ▸ R.mem_keys.mp hk)

/-- **A row is read into the group of its order**, which is opened if it is the first. -/
theorem addRow_groups (h : R.Decodes cells rows b) :
    Group.addRow (R.groups rows) (cells b) = .ok (R.groups (rows ++ [b])) := by
  have hfind : (R.groups rows).find? (·.key = R.key b) = _ := R.find?_groups (R.key b)
  by_cases hmem : R.key b ∈ rows.map R.key
  · rw [if_pos hmem] at hfind
    rw [Group.addRow_of_some h.key hfind]
    dsimp only
    rw [show (R.order rows (R.key b)).id = (R.header (R.key b)).id from rfl, h.item]
    -- only the group of the key gets the item
    show Except.ok ((R.groups rows).map _) = _
    unfold groups
    rw [List.map_map, R.keys_append, if_pos hmem, List.append_nil]
    congr 1
    refine List.map_congr_left fun k _ => ?_
    unfold order
    rw [R.items_append]
    by_cases hk : R.key b = k
    · simp [hk]
    · simp [hk, Ne.symm hk]
  · rw [if_neg hmem] at hfind
    rw [Group.addRow_of_none h.key hfind, h.header hmem]
    show (readItem? (R.header (R.key b)).id (cells b)).bind _ = _
    rw [h.item]
    show Except.ok _ = _
    unfold groups
    rw [R.keys_append, if_neg hmem, List.map_append]
    congr 2
    · refine List.map_congr_left fun k hk => ?_
      have hne : R.key b ≠ k := fun heq => hmem (heq ▸ R.mem_keys.mp hk)
      unfold order
      rw [R.items_append, if_neg hne, List.append_nil]
    · have hnil : R.items rows (R.key b) = [] := by
        unfold items
        rw [List.filter_eq_nil_iff.mpr]
        · rfl
        · intro a ha heq
          exact hmem (List.mem_map.mpr ⟨a, ha, of_decide_eq_true heq⟩)
      unfold order
      rw [List.map_singleton, R.items_append, hnil, if_pos rfl, List.nil_append]

/-! ## All rows -/

/-- **Rows are regrouped**, one after the other. -/
theorem foldlM_addRow
    (h : ∀ before b after, rows = before ++ b :: after → R.Decodes cells before b) :
    (rows.map cells).foldlM Group.addRow [] = .ok (R.groups rows) := by
  induction rows using List.reverseRecOn with
  | nil => rfl
  | append_singleton rows b ih =>
      have hrows := ih fun before b' after heq => h before b' (after ++ [b]) (by simp [heq])
      rw [List.map_append, List.foldlM_append, hrows]
      show (Group.addRow (R.groups rows) (cells b)).bind (fun groups => .ok groups) = _
      rw [R.addRow_groups (h rows b [] rfl)]
      rfl

theorem ordersOfRows_map
    (h : ∀ before b after, rows = before ++ b :: after → R.Decodes cells before b) :
    ordersOfRows (rows.map cells) = .ok (R.orders rows) := by
  unfold ordersOfRows
  rw [R.foldlM_addRow h]
  show Except.ok ((R.groups rows).map (·.order)) = _
  unfold groups orders
  rw [List.map_map]
  rfl

end Reading

end Checkout.Sql
