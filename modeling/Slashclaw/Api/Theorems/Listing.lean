import Slashclaw.Api.Theorems.Params

namespace Slashclaw

-- Each `ORDER BY` of `ListStories` ranks the stories by a total preorder.
theorem storyOrder_total (sort : SortOrder) (now : Time) (a b : Story) :
    (storyOrder sort now a b || storyOrder sort now b a) = true := by
  cases sort <;> simp only [storyOrder, Time, Bool.or_eq_true, decide_eq_true_eq, Bool.and_eq_true, beq_iff_eq] <;>
    omega

theorem storyOrder_trans (sort : SortOrder) (now : Time) (a b c : Story) :
    storyOrder sort now a b = true → storyOrder sort now b c = true → storyOrder sort now a c = true := by
  cases sort <;> simp only [storyOrder, Time, Bool.or_eq_true, decide_eq_true_eq, Bool.and_eq_true, beq_iff_eq] <;>
    omega

-- So does each `ORDER BY` of `ListComments`.
theorem commentOrder_total (sort : SortOrder) (a b : Comment) :
    (commentOrder sort a b || commentOrder sort b a) = true := by
  cases sort <;> simp only [commentOrder, Time, Bool.or_eq_true, decide_eq_true_eq, Bool.and_eq_true, beq_iff_eq] <;>
    omega

theorem commentOrder_trans (sort : SortOrder) (a b c : Comment) :
    commentOrder sort a b = true → commentOrder sort b c = true → commentOrder sort a c = true := by
  cases sort <;> simp only [commentOrder, Time, Bool.or_eq_true, decide_eq_true_eq, Bool.and_eq_true, beq_iff_eq] <;>
    omega

namespace Store

variable (st : Store) (now : Time)

theorem commentRows_pairwise (storyID : String) (sort : SortOrder) :
    (st.commentRows storyID sort).Pairwise fun a b => commentOrder sort a b = true :=
  List.sorted_mergeSort (commentOrder_trans sort) (commentOrder_total sort) _

-- The visible stories in the order of the query.
def ranked (sort : SortOrder) : List Story :=
  (st.stories.filter (!·.hidden)).mergeSort (storyOrder sort now)

theorem ranked_pairwise (sort : SortOrder) :
    (st.ranked now sort).Pairwise fun a b => storyOrder sort now a b = true :=
  List.sorted_mergeSort (storyOrder_trans sort now) (storyOrder_total sort now) _

-- With a limit the store does not replace, the page is the first `limit` rows of the ranking, and
-- the cursor the last of their ids when the ranking has more.
theorem listStories_eq {opts : ListOptions} (h₁ : 0 < opts.limit) (h₂ : opts.limit ≤ 100) :
    st.listStories now opts = ((st.ranked now opts.sort).take opts.limit.toNat,
      if opts.limit.toNat < (st.ranked now opts.sort).length then
        (((st.ranked now opts.sort).take opts.limit.toNat).getLast?.map (·.id)).getD ""
      else "") := by
  have hk : (opts.limit + 1).toNat = opts.limit.toNat + 1 := by omega
  simp only [listStories, ranked, if_neg (show ¬(opts.limit ≤ 0 ∨ opts.limit > 100) by omega), hk,
    List.length_take, List.take_take]
  by_cases hlt : opts.limit.toNat < ((st.stories.filter (!·.hidden)).mergeSort (storyOrder opts.sort now)).length
  · rw [if_pos (by omega), if_pos hlt, min_eq_left (Nat.le_succ _)]
  · rw [if_neg (by omega), if_neg hlt, List.take_of_length_le (by omega), List.take_of_length_le (by omega)]

end Store

namespace Handler

-- A page of `ListStories` is the top of the ranking its query asks for. Together with the visible
-- stories it leaves off, it is all of them; it is ranked; no story left off ranks above one on it;
-- it holds as many as the limit (from 1 to 100) allows; and it comes with a cursor, the last of
-- its ids, exactly when a visible story is left off.
theorem listStories_page (st : Store) (now : Time) (query : Query) :
    let opts := listOptions query
    let resp := listStories st now query
    0 < opts.limit ∧ opts.limit ≤ 100 ∧
      ∃ rest, (resp.stories ++ rest).Perm (st.stories.filter (!·.hidden)) ∧
        (resp.stories.Pairwise fun a b => storyOrder opts.sort now a b = true) ∧
        (∀ x ∈ resp.stories, ∀ y ∈ rest, storyOrder opts.sort now x y = true) ∧
        resp.stories.length = min opts.limit.toNat (st.stories.filter (!·.hidden)).length ∧
        resp.nextCursor = if rest = [] then "" else ((resp.stories.getLast?).map (·.id)).getD "" := by
  intro opts resp
  obtain ⟨h₁, h₂⟩ := listOptions_limit_bounds query
  have hresp := st.listStories_eq now h₁ h₂
  have hs : resp.stories = (st.ranked now opts.sort).take opts.limit.toNat := congrArg Prod.fst hresp
  have hc : resp.nextCursor = if opts.limit.toNat < (st.ranked now opts.sort).length then
      (((st.ranked now opts.sort).take opts.limit.toNat).getLast?.map (·.id)).getD "" else "" :=
    congrArg Prod.snd hresp
  have hsplit : ((st.ranked now opts.sort).take opts.limit.toNat ++
      (st.ranked now opts.sort).drop opts.limit.toNat).Pairwise fun a b => storyOrder opts.sort now a b = true := by
    rw [List.take_append_drop]
    exact st.ranked_pairwise now opts.sort
  rw [List.pairwise_append] at hsplit
  refine ⟨h₁, h₂, (st.ranked now opts.sort).drop opts.limit.toNat, ?_, ?_, ?_, ?_, ?_⟩
  · rw [hs, List.take_append_drop]
    exact List.mergeSort_perm _ _
  · exact hs ▸ hsplit.1
  · exact hs ▸ hsplit.2.2
  · simp [hs, Store.ranked]
  · rw [hc, hs]
    by_cases hlt : opts.limit.toNat < (st.ranked now opts.sort).length
    · rw [if_pos hlt, if_neg (by rw [List.drop_eq_nil_iff]; omega)]
    · rw [if_neg hlt, if_pos (List.drop_eq_nil_iff.mpr (by omega))]

end Handler

end Slashclaw
