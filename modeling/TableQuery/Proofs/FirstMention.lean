import Mathlib.Data.List.Basic
import TableQuery.Query.Basic

/-!
What it means to list items in the order of their first mention, apart from any way to compute it.
The members and the order together leave only one such list, and it is the list that is collected.
-/

namespace TableQuery

variable {Item : Type} [DecidableEq Item]

/-- Every item keeps its first place, and its later mentions are left out. -/
def firstMentions : List Item → List Item
  | [] => []
  | item :: rest => item :: (firstMentions rest).filter (· ≠ item)

@[simp] theorem mem_first_mentions {item : Item} {items : List Item} :
    item ∈ firstMentions items ↔ item ∈ items := by
  induction items with
  | nil => simp [firstMentions]
  | cons head rest induction =>
      by_cases same : item = head <;> simp [firstMentions, induction, same]

theorem filter_first_mentions_cons (head : Item) (listed rest : List Item) :
    (firstMentions (head :: rest)).filter (· ∉ listed) =
      if head ∈ listed then (firstMentions rest).filter (· ∉ listed)
      else head :: (firstMentions rest).filter (· ∉ listed ++ [head]) := by
  rw [firstMentions]
  by_cases known : head ∈ listed
  · rw [if_pos known, List.filter_cons_of_neg (by simpa using known), List.filter_filter]
    apply List.filter_congr
    intro item _
    by_cases same : item = head
    · simp [same, known]
    · simp [same]
  · rw [if_neg known, List.filter_cons_of_pos (by simpa using known), List.filter_filter]
    congr 1
    apply List.filter_congr
    intro item _
    simp

theorem foldl_note_mention (listed items : List Item) :
    items.foldl noteMention listed =
      listed ++ (firstMentions items).filter (· ∉ listed) := by
  induction items generalizing listed with
  | nil => simp [firstMentions]
  | cons head rest induction =>
      rw [List.foldl_cons, induction, filter_first_mentions_cons, noteMention]
      by_cases known : head ∈ listed
      · simp only [if_pos known]
      · simp only [if_neg known, List.append_assoc, List.singleton_append]

@[simp] theorem collect_mentions_eq (items : List Item) :
    collectMentions items = firstMentions items := by
  rw [collectMentions, foldl_note_mention]
  simp

/-- The wanted ones of some items, each once, in the order in which they are first mentioned. -/
structure ListsMentions (items : List Item) (wanted : Item → Prop) (listed : List Item) : Prop where
  members : ∀ item, item ∈ listed ↔ item ∈ items ∧ wanted item
  ordered : listed.Pairwise fun earlier later => items.idxOf earlier < items.idxOf later

namespace ListsMentions

variable {items listed others : List Item} {wanted : Item → Prop}

theorem nodup (lists : ListsMentions items wanted listed) : listed.Nodup := by
  apply lists.ordered.imp
  intro earlier later before same
  rw [same] at before
  exact Nat.lt_irrefl _ before

theorem unique (lists : ListsMentions items wanted listed)
    (alsoLists : ListsMentions items wanted others) : listed = others := by
  have sameMembers : ∀ item, item ∈ listed ↔ item ∈ others := by
    intro item
    rw [lists.members, alsoLists.members]
  have permuted : listed.Perm others :=
    (List.perm_ext_iff_of_nodup lists.nodup alsoLists.nodup).2 sameMembers
  apply permuted.eq_of_pairwise _ lists.ordered alsoLists.ordered
  intro earlier later _ _ before after
  exact absurd after (Nat.lt_asymm before)

end ListsMentions

theorem lists_mentions_first_mentions (items : List Item) :
    ListsMentions items (fun _ => True) (firstMentions items) where
  members := by simp
  ordered := by
    induction items with
    | nil => exact .nil
    | cons head rest induction =>
        have other : ∀ item ∈ (firstMentions rest).filter (· ≠ head), head ≠ item := by
          intro item member
          have kept := (List.mem_filter.1 member).2
          exact Ne.symm (of_decide_eq_true kept)
        rw [firstMentions, List.pairwise_cons]
        constructor
        · intro item member
          rw [List.idxOf_cons_self, List.idxOf_cons_ne rest (other item member)]
          exact Nat.succ_pos _
        · apply (induction.filter (· ≠ head)).imp_of_mem
          intro earlier later earlierMember laterMember before
          rw [List.idxOf_cons_ne rest (other earlier earlierMember),
            List.idxOf_cons_ne rest (other later laterMember)]
          exact Nat.succ_lt_succ before

/-- Two lists that mention the same items mention them first in two orders, but no other difference
is left: what remains of one is what remains of the other, permuted. -/
theorem first_mentions_perm {items others : List Item}
    (same : ∀ item, item ∈ items ↔ item ∈ others) :
    (firstMentions items).Perm (firstMentions others) := by
  apply (List.perm_ext_iff_of_nodup (lists_mentions_first_mentions items).nodup
    (lists_mentions_first_mentions others).nodup).2
  intro item
  rw [mem_first_mentions, mem_first_mentions]
  exact same item

theorem first_mentions_of_nodup {items : List Item} (distinct : items.Nodup) :
    firstMentions items = items := by
  induction items with
  | nil => rfl
  | cons head rest induction =>
      rw [List.nodup_cons] at distinct
      rw [firstMentions, induction distinct.2, List.filter_eq_self.2]
      intro item member
      apply decide_eq_true
      intro same
      exact distinct.1 (same ▸ member)

end TableQuery
