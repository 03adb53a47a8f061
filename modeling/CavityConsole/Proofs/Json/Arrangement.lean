import CavityConsole.Proofs.Json.Grammar

/-!
# The order of members does not matter

Tokens whose objects have their members in another order stand for the same value
(`Rearranged.denotes`). The induction is on the containers that are left. Within one object the
members that are written come in the new order too, and what was written last for a key is the same
(`Reordered.written`).
-/

namespace CavityConsole.Json

/-- Members in another order are written in another order, and hold what they held. -/
theorem Reordered.written {inner : List Token → Json → Prop} {entries others : List Entry}
    (order : Reordered entries others) {written : List (String × Json)}
    (read : List.Forall₂ (EntryOf inner) entries written) :
    ∃ changed, List.Forall₂ (EntryOf inner) others changed ∧
      ∀ key, Members.lastOf changed key = Members.lastOf written key := by
  induction order generalizing written with
  | nil => exact ⟨written, read, fun _ => rfl⟩
  | cons entry _ ih =>
    cases read with
    | @cons _ member _ written hentry hrest =>
      obtain ⟨changed, hchanged, hlast⟩ := ih hrest
      refine ⟨member :: changed, .cons hentry hchanged, fun key => ?_⟩
      rw [Members.lastOf_cons, Members.lastOf_cons, hlast]
  | swap differ entries =>
    cases read with
    | @cons _ first _ _ hfirst hrest =>
    cases hrest with
    | @cons _ second _ written hsecond hwritten =>
    -- the keys are spelled apart, and two spellings of one name are not apart
    have hne : first.1 ≠ second.1 := by
      intro heq
      obtain ⟨chars, hquoted, hname⟩ := hfirst.1
      obtain ⟨others, hothers, hother⟩ := hsecond.1
      have hchars : chars = others := String.ofList_injective (hname.symm.trans (heq.trans hother))
      exact differ chars hquoted (hchars ▸ hothers)
    exact ⟨second :: first :: written, .cons hsecond (.cons hfirst hwritten),
      Members.lastOf_swap hne written⟩
  | trans _ _ ihBefore ihBehind =>
    obtain ⟨between, hbetween, hsame⟩ := ihBefore read
    obtain ⟨changed, hchanged, hlast⟩ := ihBehind hbetween
    exact ⟨changed, hchanged, fun key => (hlast key).trans (hsame key)⟩

section

variable {arranged : List Token → List Token → Prop} {inner : List Token → Json → Prop}
  (h : ∀ tokens others, arranged tokens others → ∃ v, inner tokens v ∧ inner others v)
include h

theorem exists_elements {items changed : List (List Token)}
    (hitems : List.Forall₂ arranged items changed) :
    ∃ elements, List.Forall₂ inner items elements ∧ List.Forall₂ inner changed elements := by
  induction hitems with
  | nil => exact ⟨[], .nil, .nil⟩
  | cons hitem _ ih =>
    obtain ⟨v, htokens, hothers⟩ := h _ _ hitem
    obtain ⟨elements, hread, hchanged⟩ := ih
    exact ⟨v :: elements, .cons htokens hread, .cons hothers hchanged⟩

theorem exists_written {entries changed : List Entry}
    (hentries : List.Forall₂ (EntryArranged arranged) entries changed) :
    ∃ written, List.Forall₂ (EntryOf inner) entries written ∧
      List.Forall₂ (EntryOf inner) changed written := by
  induction hentries with
  | nil => exact ⟨[], .nil, .nil⟩
  | cons hentry _ ih =>
    obtain ⟨hkey, ⟨chars, hquoted⟩, hvalue⟩ := hentry
    obtain ⟨v, htokens, hothers⟩ := h _ _ hvalue
    obtain ⟨written, hread, hchanged⟩ := ih
    exact ⟨(String.ofList chars, v) :: written, .cons ⟨⟨chars, hquoted, rfl⟩, htokens⟩ hread,
      .cons ⟨⟨chars, hkey ▸ hquoted, rfl⟩, hothers⟩ hchanged⟩

theorem exists_container {tokens others : List Token}
    (harranged : Arranged arranged tokens others) :
    ∃ v, Container inner tokens v ∧ Container inner others v := by
  cases harranged with
  | list hitems =>
    obtain ⟨elements, hread, hchanged⟩ := exists_elements h hitems
    exact ⟨.array elements, .list hread, .list hchanged⟩
  | object hentries order =>
    obtain ⟨written, hread, hchanged⟩ := exists_written h hentries
    obtain ⟨reordered, hreordered, hlast⟩ := order.written hchanged
    have hsettled := Members.settles_ofList written
    refine ⟨.object (Members.ofList written), .object hread hsettled, .object hreordered ?_⟩
    exact ⟨hsettled.ascending, fun key => (hsettled.last key).trans (hlast key).symm⟩

end

/-- **Rearranged tokens stand for the same value.** -/
theorem Rearranged.denotes {depth : Nat} {tokens others : List Token}
    (h : Rearranged depth tokens others) :
    ∃ v, Denotes depth tokens v ∧ Denotes depth others v := by
  induction depth generalizing tokens others with
  | zero =>
    obtain ⟨rfl, v, hv⟩ := h
    exact ⟨v, hv, hv⟩
  | succ depth ih =>
    rcases h with ⟨rfl, v, hv⟩ | h
    · exact ⟨v, .inl hv, .inl hv⟩
    · obtain ⟨v, htokens, hothers⟩ := exists_container (fun _ _ hinner => ih hinner) h
      exact ⟨v, .inr htokens, .inr hothers⟩

theorem Reordered.refl (entries : List Entry) : Reordered entries entries := by
  induction entries with
  | nil => exact .nil
  | cons entry _ ih => exact .cons entry ih

theorem Denotes.rearranged {depth : Nat} {tokens : List Token} {v : Json}
    (h : Denotes depth tokens v) : Rearranged depth tokens tokens := by
  induction depth generalizing tokens v with
  | zero => exact ⟨rfl, v, h⟩
  | succ depth ih =>
    rcases h with h | h
    · exact .inl ⟨rfl, v, h⟩
    · cases h with
      | list hread =>
        refine .inr (.list ?_)
        induction hread with
        | nil => exact .nil
        | cons hitem _ ihItems => exact .cons (ih hitem) ihItems
      | object hread hsettled =>
        refine .inr (.object ?_ (.refl _))
        clear hsettled
        induction hread with
        | nil => exact .nil
        | cons hentry _ ihEntries =>
          obtain ⟨⟨chars, hquoted, -⟩, hvalue⟩ := hentry
          exact .cons ⟨rfl, ⟨chars, hquoted⟩, ih hvalue⟩ ihEntries

end CavityConsole.Json
