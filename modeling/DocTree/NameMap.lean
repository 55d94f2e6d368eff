/-!
# Maps from names

Finite maps from names, kept in the order of the names. The entries are a plain list, so that a
map may hold objects that hold maps themselves.

* `NameMap.get?`, `insert`, `erase`, with one lookup lemma for each of them, which hold for any
  list of entries;
* `NameMap.Sorted`: the names are strictly increasing, hence distinct. `insert` and `erase` keep
  that (`sorted_insert`, `sorted_erase`).
-/

namespace DocTree

/-- A finite map from names. -/
structure NameMap (α : Type) where
  entries : List (String × α)

namespace NameMap

variable {α : Type}

def empty : NameMap α := ⟨[]⟩

instance : Inhabited (NameMap α) := ⟨empty⟩

def isEmpty (m : NameMap α) : Bool := m.entries.isEmpty

/-- The names in order. -/
def names (m : NameMap α) : List String := m.entries.map (·.1)

/-- The value of a name. -/
def get? (m : NameMap α) (name : String) : Option α :=
  (m.entries.find? (·.1 == name)).map (·.2)

def contains (m : NameMap α) (name : String) : Bool := (m.get? name).isSome

/-- Put an entry at its place, in favour of an entry of the same name. -/
def insertEntry (name : String) (a : α) : List (String × α) → List (String × α)
  | [] => [(name, a)]
  | (n, b) :: rest =>
    if name = n then (name, a) :: rest
    else if name < n then (name, a) :: (n, b) :: rest
    else (n, b) :: insertEntry name a rest

def insert (m : NameMap α) (name : String) (a : α) : NameMap α :=
  ⟨insertEntry name a m.entries⟩

def erase (m : NameMap α) (name : String) : NameMap α :=
  ⟨m.entries.filter (·.1 != name)⟩

/-- The map with the given entries; of several with one name the last counts. -/
def ofList (entries : List (String × α)) : NameMap α :=
  entries.foldl (fun m (name, a) => m.insert name a) empty

/-! ## Lookup -/

@[simp] theorem get?_empty (name : String) : (empty : NameMap α).get? name = none := rfl

theorem find?_insertEntry (name name' : String) (a : α) (l : List (String × α)) :
    (insertEntry name a l).find? (·.1 == name') =
      if name = name' then some (name, a) else l.find? (·.1 == name') := by
  induction l with
  | nil => by_cases h : name = name' <;> simp [insertEntry, h]
  | cons e rest ih =>
    obtain ⟨n, b⟩ := e
    simp only [insertEntry]
    split
    · next h => subst h; by_cases h' : name = name' <;> simp [h']
    · next h =>
      split
      · by_cases h' : name = name' <;> simp [h']
      · by_cases h' : n = name'
        · subst h'; simp [h]
        · by_cases h'' : name = name' <;> simp_all

@[simp] theorem get?_insert (m : NameMap α) (name name' : String) (a : α) :
    (m.insert name a).get? name' = if name = name' then some a else m.get? name' := by
  simp only [get?, insert, find?_insertEntry]
  split <;> rfl

@[simp] theorem get?_erase (m : NameMap α) (name name' : String) :
    (m.erase name).get? name' = if name = name' then none else m.get? name' := by
  simp only [get?, erase, List.find?_filter]
  by_cases h : name = name'
  · subst h
    rw [if_pos rfl, Option.map_eq_none_iff, List.find?_eq_none]
    intro e _
    by_cases hn : e.1 = name <;> simp [hn]
  · rw [if_neg h]
    congr 2
    funext e
    by_cases hn : e.1 = name'
    · simp [hn, Ne.symm h]
    · simp [hn]

/-! ## Order -/

/-- The names are strictly increasing. -/
def Sorted (m : NameMap α) : Prop := m.entries.Pairwise (·.1 < ·.1)

theorem sorted_empty : (empty : NameMap α).Sorted := .nil

theorem mem_insertEntry {name : String} {a : α} {e : String × α} :
    ∀ {l : List (String × α)}, e ∈ insertEntry name a l → e = (name, a) ∨ e ∈ l
  | [], h => .inl (by simpa [insertEntry] using h)
  | (n, b) :: rest, h => by
    simp only [insertEntry] at h
    split at h
    · rcases List.mem_cons.1 h with h | h
      · exact .inl h
      · exact .inr (List.mem_cons_of_mem _ h)
    · split at h
      · rcases List.mem_cons.1 h with h | h
        · exact .inl h
        · exact .inr h
      · rcases List.mem_cons.1 h with h | h
        · exact .inr (h ▸ List.mem_cons_self)
        · exact (mem_insertEntry h).imp_right (List.mem_cons_of_mem _)

theorem pairwise_insertEntry (name : String) (a : α) {l : List (String × α)}
    (h : l.Pairwise (·.1 < ·.1)) : (insertEntry name a l).Pairwise (·.1 < ·.1) := by
  induction l with
  | nil => simp [insertEntry]
  | cons e rest ih =>
    obtain ⟨n, b⟩ := e
    obtain ⟨hlt, hrest⟩ := List.pairwise_cons.1 h
    simp only [insertEntry]
    split
    · next hn => subst hn; exact List.pairwise_cons.2 ⟨hlt, hrest⟩
    · next hne =>
      split
      · next hn =>
        refine List.pairwise_cons.2 ⟨fun e he => ?_, h⟩
        rcases List.mem_cons.1 he with rfl | he
        · exact hn
        · exact String.lt_trans hn (hlt e he)
      · next hn =>
        refine List.pairwise_cons.2 ⟨fun e he => ?_, ih hrest⟩
        rcases mem_insertEntry he with rfl | he
        · exact Std.lt_of_le_of_ne (String.not_lt.1 hn) (Ne.symm hne)
        · exact hlt e he

theorem sorted_insert {m : NameMap α} (h : m.Sorted) (name : String) (a : α) :
    (m.insert name a).Sorted := pairwise_insertEntry name a h

theorem sorted_erase {m : NameMap α} (h : m.Sorted) (name : String) : (m.erase name).Sorted :=
  h.filter _

end NameMap

end DocTree
