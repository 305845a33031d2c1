import Slashclaw.Store.Listing
import Mathlib.Data.List.Nodup
import Mathlib.Data.List.Perm.Subperm

namespace Slashclaw

-- The forest unfolded `k` levels deep from the positions `is`, depth first: each comment followed
-- by its `Children`, the order in which `encoding/json` writes them.
def CommentForest.walk (f : CommentForest) : Nat → List Nat → List Nat
  | 0, _ => []
  | k + 1, is => is.flatMap fun i => i :: f.walk k (f.children i)

-- A forest on the positions below `n`, given by parent links: `root i` marks the roots, and
-- `up i` names the parent of a position whose parent is among the positions.
structure ParentMap where
  n : Nat
  root : Nat → Bool
  up : Nat → Option Nat
  up_root : ∀ i, root i → up i = none
  root_lt : ∀ i, root i → i < n
  up_lt : ∀ i j, up i = some j → i < n ∧ j < n

namespace ParentMap

variable (P : ParentMap)

def roots : List Nat :=
  (List.range P.n).filter P.root

def kids (j : Nat) : List Nat :=
  (List.range P.n).filter fun i => P.up i = some j

-- The roots and the children the links give, each list in order of position.
def forest : CommentForest :=
  ⟨P.roots, P.kids⟩

-- The `m`-th ancestor.
def anc (P : ParentMap) (i : Nat) : Nat → Option Nat
  | 0 => some i
  | m + 1 => (P.anc i m).bind P.up

-- `i` lies `d` links below a root.
def Depth (i d : Nat) : Prop :=
  ∃ r, P.anc i d = some r ∧ P.root r

variable {P}

@[simp] theorem forest_roots : P.forest.roots = P.roots :=
  rfl

@[simp] theorem mem_roots {i : Nat} : i ∈ P.roots ↔ P.root i := by
  simp only [roots, List.mem_filter, List.mem_range, and_iff_right_iff_imp]
  exact P.root_lt i

@[simp] theorem mem_kids {i j : Nat} : i ∈ P.kids j ↔ P.up i = some j := by
  simp only [kids, List.mem_filter, List.mem_range, decide_eq_true_eq, and_iff_right_iff_imp]
  exact fun h => (P.up_lt i j h).1

theorem anc_add (i m d : Nat) : P.anc i (m + d) = (P.anc i m).bind fun j => P.anc j d := by
  induction d with
  | zero => show P.anc i m = _; cases P.anc i m <;> rfl
  | succ d ih =>
    show (P.anc i (m + d)).bind P.up = _
    rw [ih, Option.bind_assoc]
    rfl

theorem anc_succ' (i m : Nat) : P.anc i (m + 1) = (P.up i).bind fun j => P.anc j m := by
  rw [Nat.add_comm, anc_add]
  rfl

theorem anc_lt {i a y : Nat} (h : P.anc i a = some y) (hi : i < P.n) : y < P.n := by
  cases a with
  | zero => exact Option.some.inj h ▸ hi
  | succ a =>
    obtain ⟨z, -, hz⟩ := Option.bind_eq_some.mp h
    exact (P.up_lt z y hz).2

theorem Depth.lt {i d : Nat} (h : P.Depth i d) : i < P.n := by
  obtain ⟨r, hr, hroot⟩ := h
  cases d with
  | zero => exact Option.some.inj hr ▸ P.root_lt r hroot
  | succ d =>
    rw [anc_succ'] at hr
    obtain ⟨j, hj, -⟩ := Option.bind_eq_some.mp hr
    exact (P.up_lt i j hj).1

theorem Depth.of_anc {x a m d : Nat} (h : P.anc x m = some a) (ha : P.Depth a d) : P.Depth x (m + d) :=
  have ⟨r, hr, hroot⟩ := ha
  ⟨r, by rw [anc_add, h]; exact hr, hroot⟩

theorem Depth.up {i j d : Nat} (h : P.up i = some j) (hj : P.Depth j d) : P.Depth i (d + 1) :=
  Nat.add_comm 1 d ▸ Depth.of_anc (show P.anc i 1 = some j from h) hj

theorem Depth.not_lt {i d d' : Nat} (h : P.Depth i d) (h' : P.Depth i d') : ¬d < d' := by
  obtain ⟨r, hr, hroot⟩ := h
  obtain ⟨r', hr', -⟩ := h'
  intro hlt
  obtain ⟨m, rfl⟩ : ∃ m, d' = d + (m + 1) := ⟨d' - d - 1, by omega⟩
  rw [anc_add, hr, Option.some_bind, anc_succ', P.up_root r hroot] at hr'
  cases hr'

-- The links from a position stop at the first root, so a position has one depth at most.
theorem Depth.unique {i d d' : Nat} (h : P.Depth i d) (h' : P.Depth i d') : d = d' :=
  Nat.le_antisymm (Nat.not_lt.mp (h'.not_lt h)) (Nat.not_lt.mp (h.not_lt h'))

-- The links from a position to its root pass through positions of distinct depths, all below
-- `n`: so no position lies `n` links or more below a root.
theorem Depth.lt_n {i d : Nat} (h : P.Depth i d) : d < P.n := by
  have hy : ∀ a ≤ d, ∃ y, P.anc i a = some y ∧ P.Depth y (d - a) := fun a ha =>
    have ⟨r, hr, hroot⟩ := h
    have ⟨y, hy, hr⟩ := Option.bind_eq_some.mp ((Nat.add_sub_cancel' ha ▸ anc_add i a (d - a)).symm.trans hr)
    ⟨y, hy, r, hr, hroot⟩
  have hnd : ((List.range (d + 1)).map fun a => (P.anc i a).getD 0).Nodup := by
    refine (List.nodup_range _).map_on fun a ha b hb hab => ?_
    obtain ⟨y, hya, hda⟩ := hy a (Nat.lt_succ_iff.mp (List.mem_range.mp ha))
    obtain ⟨y', hyb, hdb⟩ := hy b (Nat.lt_succ_iff.mp (List.mem_range.mp hb))
    rw [hya, hyb, Option.getD_some, Option.getD_some] at hab
    subst hab
    have := hda.unique hdb
    have := List.mem_range.mp ha
    have := List.mem_range.mp hb
    omega
  have hsub : ((List.range (d + 1)).map fun a => (P.anc i a).getD 0) ⊆ List.range P.n := by
    intro y hmem
    obtain ⟨a, ha, rfl⟩ := List.mem_map.mp hmem
    obtain ⟨y, hya, -⟩ := hy a (Nat.lt_succ_iff.mp (List.mem_range.mp ha))
    rw [hya, Option.getD_some]
    exact List.mem_range.mpr (anc_lt hya h.lt)
  simpa using (List.subperm_of_subset hnd hsub).length_le

theorem mem_walk {x : Nat} : ∀ (k : Nat) (is : List Nat),
    x ∈ P.forest.walk k is ↔ ∃ m < k, ∃ i ∈ is, P.anc x m = some i
  | 0, is => by simp [CommentForest.walk]
  | k + 1, is => by
    simp only [CommentForest.walk, List.mem_flatMap, List.mem_cons]
    constructor
    · rintro ⟨i, hi, rfl | hx⟩
      · exact ⟨0, Nat.succ_pos _, x, hi, rfl⟩
      · obtain ⟨m, hm, z, hz, hxz⟩ := (mem_walk k _).mp hx
        exact ⟨m + 1, by omega, i, hi, by rw [anc, hxz]; exact mem_kids.mp hz⟩
    · rintro ⟨m, hm, i, hi, hx⟩
      refine ⟨i, hi, ?_⟩
      cases m with
      | zero => exact .inl (Option.some.inj hx)
      | succ m =>
        obtain ⟨z, hz, hzi⟩ := Option.bind_eq_some.mp hx
        exact .inr ((mem_walk k _).mpr ⟨m, by omega, z, mem_kids.mpr hzi, hz⟩)

theorem anc_of_mem_subtree {k a x : Nat} (hx : x ∈ a :: P.forest.walk k (P.kids a)) :
    ∃ m, P.anc x m = some a := by
  rcases List.mem_cons.mp hx with rfl | hx
  · exact ⟨0, rfl⟩
  · obtain ⟨m, -, z, hz, hxz⟩ := (mem_walk k _).mp hx
    exact ⟨m + 1, by rw [anc, hxz]; exact mem_kids.mp hz⟩

-- Unfolded from distinct positions of one depth, the forest repeats no position: the subtrees of
-- two such positions share none, and no position lies below itself.
theorem walk_nodup : ∀ (k : Nat) {is : List Nat} {d : Nat}, is.Nodup → (∀ i ∈ is, P.Depth i d) →
    (P.forest.walk k is).Nodup
  | 0, _, _, _, _ => List.nodup_nil
  | k + 1, is, d, hnd, hd => by
    refine List.nodup_flatMap.mpr ⟨fun i hi => List.nodup_cons.mpr ⟨fun hmem => ?_, ?_⟩,
      hnd.imp_of_mem fun {a b} ha hb hab x hxa hxb => hab ?_⟩
    · obtain ⟨m, -, z, hz, hiz⟩ := (mem_walk k _).mp hmem
      have hself : P.anc i (m + 1) = some i := by rw [anc, hiz]; exact mem_kids.mp hz
      have := (Depth.of_anc hself (hd i hi)).unique (hd i hi)
      omega
    · exact walk_nodup k ((List.nodup_range _).filter _) fun z hz => Depth.up (mem_kids.mp hz) (hd i hi)
    · obtain ⟨m, hm⟩ := anc_of_mem_subtree hxa
      obtain ⟨m', hm'⟩ := anc_of_mem_subtree hxb
      have hmm : m = m' := Nat.add_right_cancel ((Depth.of_anc hm (hd a ha)).unique (Depth.of_anc hm' (hd b hb)))
      subst hmm
      exact Option.some.inj (hm.symm.trans hm')

theorem walk_succ_eq : ∀ (k : Nat) (is : List Nat), (∀ x, ∀ i ∈ is, P.anc x k ≠ some i) →
    P.forest.walk (k + 1) is = P.forest.walk k is
  | 0, [], _ => rfl
  | 0, i :: _, h => absurd rfl (h i i (.head _))
  | k + 1, is, h => List.flatMap_congr fun i hi => congrArg (i :: ·) <|
      walk_succ_eq k _ fun x z hz hxz => h x i hi (by rw [anc, hxz]; exact mem_kids.mp hz)

theorem mem_walk_roots {x k : Nat} : x ∈ P.forest.walk k P.roots ↔ ∃ d < k, P.Depth x d := by
  simp only [mem_walk, mem_roots, Depth]
  exact exists_congr fun _ => and_congr_right fun _ => exists_congr fun _ => and_comm

theorem walk_roots_nodup (k : Nat) : (P.forest.walk k P.roots).Nodup :=
  walk_nodup k ((List.nodup_range _).filter _) fun r hr => show P.Depth r 0 from ⟨r, rfl, mem_roots.mp hr⟩

-- Unfolded deeper than `n` levels the forest gains nothing: it is finite.
theorem walk_roots_stable {k : Nat} (hk : P.n ≤ k) : P.forest.walk k P.roots = P.forest.walk P.n P.roots := by
  induction k, hk using Nat.le_induction with
  | base => rfl
  | succ k hk ih =>
    rw [walk_succ_eq k _ fun x r hr hx => absurd (Depth.lt_n ⟨r, hx, mem_roots.mp hr⟩) (by omega), ih]

end ParentMap

attribute [ext] CommentForest

section ByID

variable {id : String} {j : Nat}

theorem commentsByID_of_not_mem : ∀ {i : Nat} {cs : List Comment} {byID : String → Option Nat},
    id ∉ cs.map (·.id) → commentsByID i cs byID id = byID id
  | _, [], _, _ => rfl
  | i, c :: cs, byID, h => by
    simp only [List.map_cons, List.mem_cons, not_or] at h
    rw [commentsByID, commentsByID_of_not_mem h.2, if_neg h.1]

-- `byID` maps an id to the position of a comment carrying it, or to what it held before.
theorem commentsByID_sound {i : Nat} {cs : List Comment} {byID : String → Option Nat}
    (h : commentsByID i cs byID id = some j) :
    (i ≤ j ∧ ∃ c, cs[j - i]? = some c ∧ c.id = id) ∨ byID id = some j := by
  induction cs generalizing i byID with
  | nil => exact .inr h
  | cons c cs ih =>
    rcases ih h with ⟨hij, c', hc', hid⟩ | h'
    · refine .inl ⟨by omega, c', ?_, hid⟩
      rw [show j - i = j - (i + 1) + 1 by omega, List.getElem?_cons_succ]
      exact hc'
    · split at h'
      · cases h'
        exact .inl ⟨le_rfl, c, by simp, ‹id = c.id›.symm⟩
      · exact .inr h'

-- With distinct ids, `byID` names each comment's own position for its id.
theorem commentsByID_getElem {c : Comment} {cs : List Comment} (hnd : (cs.map (·.id)).Nodup) :
    ∀ {i j : Nat} {byID : String → Option Nat}, cs[j]? = some c → commentsByID i cs byID c.id = some (i + j) := by
  induction cs with
  | nil => intro _ _ _ h; nomatch h
  | cons c₀ cs ih =>
    intro i j byID h
    cases j with
    | zero =>
      simp only [List.getElem?_cons_zero, Option.some.injEq] at h
      subst h
      rw [commentsByID, commentsByID_of_not_mem (List.nodup_cons.mp hnd).1, if_pos rfl]
      rfl
    | succ j =>
      rw [List.getElem?_cons_succ] at h
      rw [commentsByID, ih (List.nodup_cons.mp hnd).2 h]
      congr 1
      omega

end ByID

-- The links `buildCommentTree` follows: a comment with an empty `ParentID` is a root, and any
-- other hangs below the position `byID` names for its `ParentID`, if it names one.
def commentParents (L : List Comment) : ParentMap where
  n := L.length
  root i := L[i]?.any fun c => c.parentID = ""
  up i := L[i]?.bind fun c => if c.parentID = "" then none else commentsByID 0 L (fun _ => none) c.parentID
  up_root i h := by
    cases hc : L[i]? with
    | none => simp [hc] at h
    | some c => simp_all
  root_lt i h := by
    by_contra hlt
    simp [List.getElem?_eq_none (Nat.le_of_not_lt hlt)] at h
  up_lt i j h := by
    cases hc : L[i]? with
    | none => simp [hc] at h
    | some c =>
      simp only [hc, Option.some_bind] at h
      split at h
      · cases h
      · refine ⟨(List.getElem?_eq_some_iff.mp hc).1, ?_⟩
        rcases commentsByID_sound h with ⟨-, c', hc', -⟩ | h
        · exact (List.getElem?_eq_some_iff.mp hc').1
        · cases h

theorem map_fst_filter_enum {α : Type} (L : List α) (p : Nat × α → Bool) (q : Nat → Bool)
    (h : ∀ i a, L[i]? = some a → p (i, a) = q i) :
    (L.enum.filter p).map Prod.fst = (List.range L.length).filter q := by
  rw [← List.enum_map_fst, List.filter_map]
  exact congrArg _ (List.filter_congr fun x hx => h x.1 x.2 (List.mem_enum_iff_getElem?.mp hx))

section Attach

variable (byID : String → Option Nat)

theorem attachComments_roots : ∀ (i : Nat) (cs : List Comment) (f : CommentForest),
    (attachComments byID i cs f).roots =
      f.roots ++ ((cs.enumFrom i).filter fun x => x.2.parentID = "").map Prod.fst
  | _, [], f => by simp [attachComments]
  | i, c :: cs, f => by
    rw [attachComments, attachComments_roots]
    by_cases hc : c.parentID = ""
    · simp [hc]
    · simp only [hc, if_false]
      split <;> simp [hc]

theorem attachComments_children (j : Nat) : ∀ (i : Nat) (cs : List Comment) (f : CommentForest),
    (attachComments byID i cs f).children j = f.children j ++
      ((cs.enumFrom i).filter fun x => (if x.2.parentID = "" then none else byID x.2.parentID) = some j).map Prod.fst
  | _, [], f => by simp [attachComments]
  | i, c :: cs, f => by
    rw [attachComments, attachComments_children]
    by_cases hc : c.parentID = ""
    · simp [hc]
    · simp only [hc, if_false]
      split
      · next p hp =>
        by_cases hj : j = p
        · subst hj
          simp [hc, hp]
        · simp [hc, hp, hj, Ne.symm hj]
      · next hp => simp [hc, hp]

end Attach

-- The second loop appends each comment to the roots or to the `Children` of its parent, in the
-- order of the slice: it builds the forest of `commentParents`.
theorem buildCommentTree_eq (L : List Comment) : buildCommentTree L = (commentParents L).forest := by
  refine CommentForest.ext ?_ (funext fun j => ?_)
  · rw [buildCommentTree, attachComments_roots, List.nil_append]
    exact map_fst_filter_enum L _ _ fun i a ha => by
      show _ = L[i]?.any _
      rw [ha]
      rfl
  · rw [buildCommentTree, attachComments_children, List.nil_append]
    exact map_fst_filter_enum L _ _ fun i a ha => by
      show _ = decide ((L[i]?.bind _) = some j)
      rw [ha]
      rfl

theorem walk_buildCommentTree_nodup (L : List Comment) (k : Nat) :
    ((buildCommentTree L).walk k (buildCommentTree L).roots).Nodup := by
  rw [buildCommentTree_eq]
  exact ParentMap.walk_roots_nodup k

theorem walk_buildCommentTree_stable (L : List Comment) {k : Nat} (hk : L.length ≤ k) :
    (buildCommentTree L).walk k (buildCommentTree L).roots =
      (buildCommentTree L).walk L.length (buildCommentTree L).roots := by
  rw [buildCommentTree_eq]
  exact ParentMap.walk_roots_stable hk

-- The `ParentID` chain of the comment at position `i` within `L` ends at a comment with an empty
-- `ParentID`.
inductive ChainEnds (L : List Comment) : Nat → Prop
  | root {i : Nat} {c : Comment} : L[i]? = some c → c.parentID = "" → ChainEnds L i
  | parent {i j : Nat} {c p : Comment} : L[i]? = some c → c.parentID ≠ "" → L[j]? = some p →
      p.id = c.parentID → ChainEnds L j → ChainEnds L i

section Distinct

variable {L : List Comment} (hnd : (L.map (·.id)).Nodup)
include hnd

-- A comment hangs below the comment whose id its `ParentID` names.
theorem commentParents_up {i j : Nat} {c : Comment} (hc : L[i]? = some c) :
    (commentParents L).up i = some j ↔ c.parentID ≠ "" ∧ ∃ p, L[j]? = some p ∧ p.id = c.parentID := by
  show (L[i]?.bind _) = some j ↔ _
  rw [hc, Option.some_bind]
  split
  · simp_all
  · next hne =>
    constructor
    · intro h
      rcases commentsByID_sound h with ⟨-, p, hp, hid⟩ | h
      · exact ⟨hne, p, by simpa using hp, hid⟩
      · cases h
    · rintro ⟨-, p, hp, hid⟩
      rw [← hid, commentsByID_getElem hnd hp, Nat.zero_add]

theorem commentParents_kids {p : Nat} {c : Comment} (hp : L[p]? = some c) :
    (commentParents L).kids p =
      (List.range L.length).filter fun i => L[i]?.any fun c' => c'.parentID ≠ "" ∧ c'.parentID = c.id := by
  refine List.filter_congr fun i _ => ?_
  cases hi : L[i]? with
  | none => simp [commentParents, hi]
  | some c' =>
    rw [Option.any_some, decide_eq_decide, commentParents_up hnd hi, hp]
    simp [eq_comm]

theorem chainEnds_iff {i : Nat} : ChainEnds L i ↔ ∃ d, (commentParents L).Depth i d := by
  constructor
  · intro h
    induction h with
    | root hc hp => exact ⟨0, _, rfl, by simp [commentParents, hc, hp]⟩
    | parent hc hne hp hid _ ih =>
      obtain ⟨d, hd⟩ := ih
      exact ⟨d + 1, ParentMap.Depth.up ((commentParents_up hnd hc).mpr ⟨hne, _, hp, hid⟩) hd⟩
  · rintro ⟨d, hd⟩
    induction d generalizing i with
    | zero =>
      obtain ⟨r, hr, hroot⟩ := hd
      cases hr
      cases hc : L[i]? with
      | none => simp [commentParents, hc] at hroot
      | some c => exact .root hc (by simpa [commentParents, hc] using hroot)
    | succ d ih =>
      obtain ⟨r, hr, hroot⟩ := hd
      rw [ParentMap.anc_succ'] at hr
      obtain ⟨j, hj, hjr⟩ := Option.bind_eq_some.mp hr
      cases hc : L[i]? with
      | none => simp [commentParents, hc] at hj
      | some c =>
        obtain ⟨hne, p, hp, hid⟩ := (commentParents_up hnd hc).mp hj
        exact .parent hc hne hp hid (ih ⟨r, hjr, hroot⟩)

theorem mem_walk_buildCommentTree (i : Nat) :
    i ∈ (buildCommentTree L).walk L.length (buildCommentTree L).roots ↔ ChainEnds L i := by
  rw [buildCommentTree_eq, ParentMap.forest_roots, ParentMap.mem_walk_roots, chainEnds_iff hnd]
  exact ⟨fun ⟨d, _, hd⟩ => ⟨d, hd⟩, fun ⟨d, hd⟩ => ⟨d, hd.lt_n, hd⟩⟩

end Distinct

-- What `buildCommentTree` returns over the comments `L`: the roots are the comments with an empty
-- `ParentID` and the children of a comment are those whose non-empty `ParentID` is its id, each in
-- the order of `L`; the forest they span ends within `L.length` levels, repeats no comment, and
-- holds exactly the comments whose `ParentID` chain within `L` ends at a root.
def BuildsForest (L : List Comment) : Prop :=
  let f := buildCommentTree L
  f.roots = (List.range L.length).filter (fun i => L[i]?.any fun c => c.parentID = "") ∧
  (∀ p c, L[p]? = some c → f.children p =
    (List.range L.length).filter fun i => L[i]?.any fun c' => c'.parentID ≠ "" ∧ c'.parentID = c.id) ∧
  (∀ k, L.length ≤ k → f.walk k f.roots = f.walk L.length f.roots) ∧
  (f.walk L.length f.roots).Nodup ∧
  ∀ i, i ∈ f.walk L.length f.roots ↔ ChainEnds L i

theorem buildCommentTree_builds (L : List Comment) (hnd : (L.map (·.id)).Nodup) : BuildsForest L := by
  refine ⟨?_, fun p c hp => ?_, fun k hk => walk_buildCommentTree_stable L hk,
    walk_buildCommentTree_nodup L _, mem_walk_buildCommentTree hnd⟩
  · rw [buildCommentTree_eq]
    rfl
  · rw [buildCommentTree_eq]
    exact commentParents_kids hnd hp

-- A comment of story `s` with the given id and parent.
def Comment.ofIDs (id parentID : String) : Comment :=
  ⟨id, "s", parentID, "text", 0, 0, false, "", false⟩

theorem buildCommentTree_builds_reply :
    ([Comment.ofIDs "a" "", .ofIDs "b" "a"].map (·.id)).Nodup ∧
      BuildsForest [Comment.ofIDs "a" "", .ofIDs "b" "a"] :=
  ⟨by decide, buildCommentTree_builds _ (by decide)⟩

-- The comment with the empty id gets no children: the comments whose `ParentID` is the empty
-- string are roots instead.
theorem buildCommentTree_empty_id :
    ([Comment.ofIDs "" "", .ofIDs "x" ""].map (·.id)).Nodup ∧
      (Comment.ofIDs "x" "").parentID = (Comment.ofIDs "" "").id ∧
      (buildCommentTree [Comment.ofIDs "" "", .ofIDs "x" ""]).children 0 = [] ∧
      (buildCommentTree [Comment.ofIDs "" "", .ofIDs "x" ""]).roots = [0, 1] := by
  decide

end Slashclaw
