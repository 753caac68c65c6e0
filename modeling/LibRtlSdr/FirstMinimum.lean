import Mathlib.Order.Lattice

namespace LibRtlSdr.FirstMinimum

/-!
# The first entry with the least key

A loop over a list remembers the place of the first entry with the least key that
it has met.  It begins with a bound on all keys and with place 0, so that also a
list all of whose keys are the bound has its first entry found.
-/

variable {Entry Key : Type} [LinearOrder Key]

/-- Go on at a place, with the best place so far and its key. -/
def search
    (key : Entry → Key) :
    List Entry → Nat → Nat → Key → Nat
  | [], _, best, _ => best
  | entry :: rest, place, best, least =>
      if key entry < least then
        search key rest (place + 1) place (key entry)
      else
        search key rest (place + 1) best least

/-- The place of the first entry with the least key, for keys up to a bound. -/
def firstMinimum (key : Entry → Key) (bound : Key) (entries : List Entry) : Nat :=
  search key entries 0 0 bound

/-- An entry of the list, at a place, with the least key. -/
def LeastAt (key : Entry → Key) (entries : List Entry) (place : Nat) : Prop :=
  ∃ entry,
    entries[place]? = some entry ∧ ∀ other ∈ entries, key entry ≤ key other

section Search

variable {key : Entry → Key} {bound least : Key} {seen rest : List Entry}
  {entry : Entry} {best : Nat}

/-- What the loop knows: it has begun, or it has the least key of what it has seen. -/
def Knows
    (key : Entry → Key)
    (bound : Key)
    (seen : List Entry)
    (best : Nat)
    (least : Key) : Prop :=
  (seen = [] ∧ best = 0 ∧ least = bound) ∨
    ∃ entry,
      seen[best]? = some entry ∧ key entry = least ∧
        ∀ other ∈ seen, least ≤ key other

/-- A lesser key is the least one then. -/
theorem Knows.lesser
    (knows : Knows key bound seen best least)
    (lesser : key entry < least) :
    Knows key bound (seen ++ [entry]) seen.length (key entry) := by
  refine .inr ⟨entry, List.getElem?_concat_length, rfl, fun other member => ?_⟩
  rcases List.mem_append.mp member with inSeen | isEntry
  · rcases knows with ⟨rfl, _, _⟩ | ⟨_, _, _, minimal⟩
    · cases inSeen
    · exact lesser.le.trans (minimal other inSeen)
  · rw [List.mem_singleton.mp isEntry]

/-- Another key leaves the place, unless it is the first one. -/
theorem Knows.greater
    (bounded : ∀ entry, key entry ≤ bound)
    (knows : Knows key bound seen best least)
    (greater : ¬ key entry < least) :
    Knows key bound (seen ++ [entry]) best least := by
  right
  rcases knows with ⟨rfl, rfl, rfl⟩ | ⟨found, place, isLeast, minimal⟩
  · have same : key entry = least :=
      le_antisymm (bounded entry) (not_lt.mp greater)
    refine ⟨entry, rfl, same, fun other member => ?_⟩
    rw [List.mem_singleton.mp member, same]
  · refine ⟨found, ?_, isLeast, fun other member => ?_⟩
    · obtain ⟨within, _⟩ := List.getElem?_eq_some_iff.mp place
      rw [List.getElem?_append_left within, place]
    · rcases List.mem_append.mp member with inSeen | isEntry
      · exact minimal other inSeen
      · rw [List.mem_singleton.mp isEntry]
        exact not_lt.mp greater

/-- From what it knows the loop finds a least entry. -/
theorem Knows.search
    (bounded : ∀ entry, key entry ≤ bound)
    (knows : Knows key bound seen best least)
    (nonempty : seen ++ rest ≠ []) :
    LeastAt key (seen ++ rest)
      (FirstMinimum.search key rest seen.length best least) := by
  induction rest generalizing seen best least with
  | nil =>
      rw [List.append_nil] at nonempty ⊢
      rcases knows with ⟨isEmpty, _, _⟩ | ⟨found, place, isLeast, minimal⟩
      · exact absurd isEmpty nonempty
      · exact ⟨found, place, fun other member => isLeast.trans_le (minimal other member)⟩
  | cons entry rest inductionHypothesis =>
      have split : seen ++ entry :: rest = (seen ++ [entry]) ++ rest := by
        rw [List.append_assoc, List.singleton_append]
      have length : (seen ++ [entry]).length = seen.length + 1 :=
        List.length_append
      rw [split] at nonempty ⊢
      rw [FirstMinimum.search, ← length]
      split
      · exact inductionHypothesis (knows.lesser ‹_›) nonempty
      · exact inductionHypothesis (knows.greater bounded ‹_›) nonempty

end Search

/-- In a list that is not empty, an entry with the least key is found. -/
theorem firstMinimum_least
    {key : Entry → Key}
    {bound : Key}
    {entries : List Entry}
    (bounded : ∀ entry, key entry ≤ bound)
    (nonempty : entries ≠ []) :
    LeastAt key entries (firstMinimum key bound entries) := by
  have begins : Knows key bound ([] : List Entry) 0 bound :=
    .inl ⟨rfl, rfl, rfl⟩
  exact begins.search bounded nonempty

end LibRtlSdr.FirstMinimum
