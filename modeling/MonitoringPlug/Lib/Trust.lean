import Mathlib.Data.List.Basic

/-! Keys that vouch for others at names, as in a chain of trust from its anchors. -/
namespace Trust

variable {Name Key : Type}

/-- From name to name the keys that are found with those known so far are added to them. -/
def gather (fetch : Name → List Key → List Key) : List Key → List Name → List Key
  | keys, [] => keys
  | keys, name :: names => gather fetch (keys ++ fetch name keys) names

/-- Each key vouches for the next one, at the name of the link. -/
def Linked (vouches : Name → Key → Key → Prop) : Key → List (Name × Key) → Key → Prop
  | key, [], last => key = last
  | key, (name, next) :: links, last => vouches name key next ∧ Linked vouches next links last

/-- A chain of links from an anchor to the key, whose names come in the order of the path. -/
def Chain (vouches : Name → Key → Key → Prop) (anchors : List Key) (names : List Name)
    (key : Key) : Prop :=
  ∃ anchor ∈ anchors, ∃ links : List (Name × Key),
    (links.map Prod.fst).Sublist names ∧ Linked vouches anchor links key

variable {fetch : Name → List Key → List Key} {vouches : Name → Key → Key → Prop}
  {keys more : List Key} {names : List Name} {key : Key}

theorem subset_gather : keys ⊆ gather fetch keys names := by
  induction names generalizing keys with
  | nil => exact List.Subset.refl keys
  | cons name names ih =>
      exact List.Subset.trans (List.subset_append_left keys (fetch name keys)) ih

/-- Where what is found is vouched for by a known key, every key has a chain. -/
theorem chain_of_mem_gather
    (hFetch : ∀ name keys next, next ∈ fetch name keys → ∃ key ∈ keys, vouches name key next)
    (h : key ∈ gather fetch keys names) : Chain vouches keys names key := by
  induction names generalizing keys with
  | nil => exact ⟨key, h, [], List.Sublist.refl _, rfl⟩
  | cons name names ih =>
      obtain ⟨anchor, hAnchor, links, hNames, hLinked⟩ := ih h
      rcases List.mem_append.mp hAnchor with hKnown | hFound
      · exact ⟨anchor, hKnown, links, hNames.cons name, hLinked⟩
      · obtain ⟨first, hFirst, hVouches⟩ := hFetch name keys anchor hFound
        exact ⟨first, hFirst, (name, anchor) :: links, hNames.cons_cons name, hVouches, hLinked⟩

/-- Where everything a known key vouches for is found, every chain ends at a gathered key. -/
theorem mem_gather_of_chain
    (hFetch : ∀ name keys key next, key ∈ keys → vouches name key next → next ∈ fetch name keys)
    (h : Chain vouches keys names key) : key ∈ gather fetch keys names := by
  obtain ⟨anchor, hAnchor, links, hNames, hLinked⟩ := h
  induction names generalizing keys anchor links with
  | nil =>
      obtain rfl : links = [] := List.map_eq_nil_iff.mp (List.sublist_nil.mp hNames)
      obtain rfl : anchor = key := hLinked
      exact hAnchor
  | cons name names ih =>
      cases links with
      | nil =>
          obtain rfl : anchor = key := hLinked
          exact subset_gather hAnchor
      | cons link links =>
          obtain ⟨linkName, next⟩ := link
          obtain ⟨hVouches, hRest⟩ := hLinked
          cases hNames with
          | cons _ hLater =>
              exact ih anchor (List.mem_append_left _ hAnchor) ((linkName, next) :: links) hLater
                ⟨hVouches, hRest⟩
          | cons_cons _ hLater =>
              exact ih next (List.mem_append_right _ (hFetch _ keys anchor next hAnchor hVouches))
                links hLater hRest

end Trust
