import Mathlib.Tactic.Common

/-!
# Reading and assigning

A loop that reads one item after the other and assigns what it read as it goes, giving up at the
first item that cannot be read. What it assigns to has no part in whether it gives up, so it may as
well read everything first.
-/

namespace Foundation

universe u

variable {Item Value State Error : Type*}

/-- A computation in two parts comes to a value if both parts do. -/
theorem bind_eq_ok_iff {α β : Type u} {first : Except Error α} {rest : α → Except Error β}
    {b : β} :
    first >>= rest = .ok b ↔ ∃ a, first = .ok a ∧ rest a = .ok b := by
  cases first with
  | error e => exact iff_of_false (fun h => nomatch h) (by simp)
  | ok a => exact ⟨fun h => ⟨a, rfl, h⟩, by rintro ⟨_, ⟨⟩, h⟩; exact h⟩

/-- Everything the items hold, in order, or the error of the first that cannot be read. -/
def readAll (read : Item → Except Error (List Value)) (items : List Item) :
    Except Error (List Value) :=
  (items.mapM read).map List.flatten

section ReadAll

variable (read : Item → Except Error (List Value))

theorem readAll_cons (item : Item) (items : List Item) :
    readAll read (item :: items) = (do
      let first ← read item
      let rest ← readAll read items
      pure (first ++ rest)) := by
  cases hread : read item with
  | error e => simp [readAll, List.mapM_cons, hread, bind, Except.bind, Except.map]
  | ok first =>
      cases hrest : items.mapM read <;>
        simp [readAll, List.mapM_cons, hread, hrest, bind, Except.bind, Except.map, pure,
          Except.pure]

/-- What was read was read from some item. -/
theorem mem_of_readAll {items : List Item} {values : List Value}
    (hread : readAll read items = .ok values) {value : Value} (hvalue : value ∈ values) :
    ∃ item ∈ items, ∃ held, read item = .ok held ∧ value ∈ held := by
  induction items generalizing values with
  | nil =>
      obtain rfl : [] = values := Except.ok.inj hread
      cases hvalue
  | cons item items ih =>
      rw [readAll_cons] at hread
      cases hfirst : read item with
      | error e => rw [hfirst] at hread; cases hread
      | ok first =>
          cases hrest : readAll read items with
          | error e => rw [hfirst, hrest] at hread; cases hread
          | ok rest =>
              rw [hfirst, hrest] at hread
              obtain rfl : first ++ rest = values := Except.ok.inj hread
              rcases List.mem_append.mp hvalue with hmem | hmem
              · exact ⟨item, List.mem_cons_self, first, hfirst, hmem⟩
              · obtain ⟨other, hother, held, hheld⟩ := ih hrest hmem
                exact ⟨other, List.mem_cons_of_mem _ hother, held, hheld⟩

/-- Whatever an item holds was read. -/
theorem mem_readAll {items : List Item} {values : List Value}
    (hread : readAll read items = .ok values) {item : Item} (hitem : item ∈ items) :
    ∃ held, read item = .ok held ∧ ∀ value ∈ held, value ∈ values := by
  induction items generalizing values with
  | nil => cases hitem
  | cons first items ih =>
      rw [readAll_cons] at hread
      obtain ⟨held, hfirst, hread⟩ := bind_eq_ok_iff.mp hread
      obtain ⟨rest, hrest, hread⟩ := bind_eq_ok_iff.mp hread
      obtain rfl : held ++ rest = values := Except.ok.inj hread
      rcases List.mem_cons.mp hitem with rfl | hmem
      · exact ⟨held, hfirst, fun value hvalue => List.mem_append_left rest hvalue⟩
      · obtain ⟨later, hlater, hincluded⟩ := ih hrest hmem
        exact ⟨later, hlater, fun value hvalue =>
          List.mem_append_right held (hincluded value hvalue)⟩

/-- A loop over the positions of a list reads its elements. -/
theorem readAll_range {Node : Type*} {value : Node → Value} {elements : List Node}
    {read : ℕ → Except Error (List Value)}
    (hread : ∀ i (hi : i < elements.length), read i = .ok [value elements[i]]) :
    readAll read (List.range elements.length) = .ok (elements.map value) := by
  induction elements generalizing read with
  | nil => rfl
  | cons first rest ih =>
      have hrest : readAll (fun i => read (i + 1)) (List.range rest.length) =
          .ok (rest.map value) := by
        apply ih
        intro i hi
        exact hread (i + 1) (Nat.succ_lt_succ hi)
      have hshift : readAll read ((List.range rest.length).map Nat.succ) =
          readAll (fun i => read (i + 1)) (List.range rest.length) := by
        simp only [readAll, List.mapM_map]
        rfl
      rw [List.length_cons, List.range_succ_eq_map, readAll_cons, hread 0 (Nat.succ_pos _), hshift,
        hrest]
      rfl

end ReadAll

/-! ## Success -/

def Succeeds {α : Type*} (result : Except Error α) : Prop := ∃ a, result = .ok a

/-- A computation in two parts may have its second part exchanged for one that succeeds on the same
values. -/
theorem succeeds_bind_congr {α β : Type u} {first : Except Error α}
    {rest rest' : α → Except Error β}
    (hrest : ∀ a, first = .ok a → (Succeeds (rest a) ↔ Succeeds (rest' a))) :
    Succeeds (first >>= rest) ↔ Succeeds (first >>= rest') := by
  cases first with
  | error e => exact Iff.rfl
  | ok a => exact hrest a rfl

theorem readAll_succeeds_iff {read : Item → Except Error (List Value)} {items : List Item} :
    Succeeds (readAll read items) ↔ ∀ item ∈ items, Succeeds (read item) := by
  constructor
  · rintro ⟨values, hread⟩ item hitem
    obtain ⟨held, hheld, -⟩ := mem_readAll read hread hitem
    exact ⟨held, hheld⟩
  · intro hitems
    induction items with
    | nil => exact ⟨[], rfl⟩
    | cons item items ih =>
        obtain ⟨first, hfirst⟩ := hitems item List.mem_cons_self
        obtain ⟨rest, hrest⟩ := ih fun item hitem => hitems item (List.mem_cons_of_mem _ hitem)
        exact ⟨first ++ rest, by rw [readAll_cons, hfirst, hrest]; rfl⟩

theorem readAll_succeeds_congr {read read' : Item → Except Error (List Value)} {items : List Item}
    (hread : ∀ item ∈ items, (Succeeds (read item) ↔ Succeeds (read' item))) :
    Succeeds (readAll read items) ↔ Succeeds (readAll read' items) := by
  rw [readAll_succeeds_iff, readAll_succeeds_iff]
  exact forall₂_congr hread

/-! ## Reading in pieces, and assigning -/

/-- What is done with the value of a computation in two parts is done with that of the second. -/
theorem bind_map {α β γ : Type u} (first : Except Error α) (rest : α → Except Error β)
    (f : β → γ) : (first >>= rest).map f = first >>= fun a => (rest a).map f := by
  cases first <;> rfl

/-- Items that are read in larger pieces are read piece by piece. -/
theorem readAll_flatMap {Piece : Type*} {read : Item → Except Error (List Value)}
    {readPieces : Item → Except Error (List Piece)} {values : Piece → List Value}
    (hread : ∀ item, read item = (readPieces item).map (List.flatMap values))
    (items : List Item) :
    readAll read items = (readAll readPieces items).map (List.flatMap values) := by
  induction items with
  | nil => rfl
  | cons item items ih =>
      rw [readAll_cons, readAll_cons, ih, hread]
      cases hfirst : readPieces item with
      | error e => rfl
      | ok first =>
          cases hrest : readAll readPieces items with
          | error e => rfl
          | ok rest => exact congrArg Except.ok List.flatMap_append.symm

/-- A loop whose body reads and assigns reads everything and assigns it. -/
theorem foldlM_eq_readAll {read : Item → Except Error (List Value)}
    {assign : State → Value → State} {body : State → Item → Except Error State}
    (hbody : ∀ s item, body s item = (read item).map fun held => held.foldl assign s)
    (s : State) (items : List Item) :
    items.foldlM body s = (readAll read items).map fun values => values.foldl assign s := by
  induction items generalizing s with
  | nil => rfl
  | cons item items ih =>
      rw [List.foldlM_cons, readAll_cons, hbody]
      cases hread : read item with
      | error e => rfl
      | ok first =>
          change items.foldlM body (first.foldl assign s) = _
          rw [ih]
          cases hrest : readAll read items with
          | error e => rfl
          | ok rest => exact congrArg Except.ok List.foldl_append.symm

/-! ## What the assignments leave -/

section Assigning

variable {Field : Type*} {assign : State → Value → State}

/-- Of the values for a field the last one stands. -/
theorem field_foldl (field : State → Field) (held : Value → Option Field)
    (hassign : ∀ s value, field (assign s value) = (held value).getD (field s))
    (s : State) (values : List Value) :
    field (values.foldl assign s) = ((values.filterMap held).getLast?).getD (field s) := by
  induction values generalizing s with
  | nil => rfl
  | cons value values ih =>
      rw [List.foldl_cons, ih, hassign]
      cases hheld : held value with
      | none => rw [List.filterMap_cons_none hheld]; rfl
      | some first =>
          rw [List.filterMap_cons_some hheld, List.getLast?_cons]
          rfl

/-- A field that collects holds what it held, then the values for it. -/
theorem collected_foldl (field : State → List Field) (held : Value → Option Field)
    (hassign : ∀ s value, field (assign s value) = field s ++ (held value).toList)
    (s : State) (values : List Value) :
    field (values.foldl assign s) = field s ++ values.filterMap held := by
  induction values generalizing s with
  | nil => exact (List.append_nil _).symm
  | cons value values ih =>
      rw [List.foldl_cons, ih, hassign, List.append_assoc]
      cases hheld : held value with
      | none => rw [List.filterMap_cons_none hheld]; rfl
      | some first => rw [List.filterMap_cons_some hheld]; rfl

end Assigning

end Foundation
