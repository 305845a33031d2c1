import Slashclaw.Api.Routes
import Slashclaw.Execution.Schedule
import Slashclaw.Effect.Reads
import Slashclaw.Execution.Theorems.Timed

namespace Slashclaw

open Execution Relation

-- An agent gets a challenge and a token, then posts a story with that token and another agent's
-- name in `X-Agent-Id`: under either routing the story is stored as verified under that name.
set_option maxRecDepth 4000 in
theorem createStory_verified_header_agent (routing : Routing) :
    let s := (State.init 0).run ((Handler.ofConfig Primitives.plain Config.load).serve routing) false
      ([.spawn ⟨.createChallenge (some ⟨"agent", algEd25519⟩), .ofHeaders "" ""⟩] ++
        List.replicate 4 (.exec 0 ⟨second, false, "ch", by decide⟩) ++
        [.spawn ⟨.verifyChallenge (some ⟨"agent", algEd25519, "kkkkkkkkkkkkkkkkkkkkkkkkkkkkkkkk", "ch",
          "chkkkkkkkkkkkkkkkkkkkkkkkkkkkkkkkk"⟩), .ofHeaders "" ""⟩] ++
        List.replicate 9 (.exec 1 ⟨second, false, "tk", by decide⟩) ++
        [.spawn ⟨.createStory (some ⟨"A story title", "", "some text", []⟩), .ofHeaders "Bearer tk" "mallory"⟩] ++
        List.replicate 6 (.exec 2 ⟨second, false, "st", by decide⟩))
    ReflTransGen (Step ((Handler.ofConfig Primitives.plain Config.load).serve routing)) (.init 0) s ∧
      s.world.store.tokens.map (fun t => (t.token, t.agentID)) = [("tk", "agent")] ∧
      s.world.store.stories.map (fun st => (st.agentID, st.agentVerified)) = [("mallory", true)] := by
  intro s
  refine ⟨State.run_steps _ _ _, ?_, ?_⟩ <;> cases routing <;> decide

theorem foldl_eq_none {α β : Type} {f : Option β → α → Option β} (hf : ∀ o a, f o a ≠ none) :
    ∀ (l : List α) (o : Option β), l.foldl f o = none ↔ o = none ∧ l = []
  | [], o => by simp
  | a :: l, o => by simp [foldl_eq_none hf l, hf]

-- `FindStoryByURL` finds nothing exactly when every story of the URL created after the clock
-- reading of `since` is hidden.
theorem Store.findStoryByURL_eq_none {s : Store} {url : String} {since : LocalTime} :
    s.findStoryByURL url since = none ↔
      ∀ st ∈ s.stories, nullEq st.url url = true → since.wall < st.createdAt → st.hidden = true := by
  unfold findStoryByURL
  rw [foldl_eq_none (fun o _ => by cases o <;> simp; split <;> simp), List.filter_eq_nil_iff]
  simp

-- The statement answers nothing exactly when it may: it reads the database and leaves it alone.
theorem Effect.can_findStoryByURL_none {s s' : Store} {url : String} {since : LocalTime} :
    Effect.Can s (.findStoryByURL url since) (.ok none) s' ↔
      s' = s ∧ ∀ st ∈ s.stories, nullEq st.url url = true → since.wall < st.createdAt → st.hidden = true := by
  refine ⟨fun h => ?_, fun ⟨e, h⟩ => .inr ⟨congrArg (Except.map Prod.fst ∘ World.read s)
    (Store.findStoryByURL_eq_none.mpr h).symm, e⟩⟩
  rcases h with ⟨h, -⟩ | ⟨h, rfl⟩
  · cases h
  · exact ⟨rfl, Store.findStoryByURL_eq_none.mp (Except.ok.inj h).symm⟩

-- A statement that neither writes nor looks a URL up.
def Effect.Quiet (e : Effect) : Prop :=
  e.table = none ∧ ∀ u since, e ≠ .findStoryByURL u since

-- Of a submission of `req` to a server of the library `P`, its log `l` and its answer: when its
-- lookup of the URL found a story, it answers that story's id as a duplicate and writes no story;
-- when it inserts a story with a URL, it had read the clock and looked the URL up since that
-- reading less the window `W`, in the server's zone, and found none.
def DuplicateChecked (P : Primitives) (W : Duration) (req : CreateStoryRequest) (l : List Prog.Event)
    (res : Option Response) : Prop :=
  (∀ since ex, ⟨.findStoryByURL req.url since, .ok (some ex)⟩ ∈ l →
    res = some (writeJSON 200 (.storyCreated ex.id true)) ∧ ∀ ev ∈ l, ev.effect.table ≠ some .stories) ∧
  (req.url ≠ "" → ∀ st a, ⟨.createStory st, a⟩ ∈ l →
    ∃ t, ⟨.now, t⟩ ∈ l ∧ ⟨.findStoryByURL req.url (P.inLocal (t - W)), .ok none⟩ ∈ l)

namespace DuplicateChecked

variable {P : Primitives} {W : Duration} {req : CreateStoryRequest} {l : List Prog.Event} {res : Option Response}

theorem of_quiet (h : ∀ ev ∈ l, ev.effect.Quiet) : DuplicateChecked P W req l res :=
  ⟨fun _ _ hm => absurd rfl ((h _ hm).2 _ _), fun _ _ _ hm => absurd (h _ hm).1 (by simp [Effect.table])⟩

theorem append_quiet {l₀ : List Prog.Event} (h₀ : ∀ ev ∈ l₀, ev.effect.Quiet) (h : DuplicateChecked P W req l res) :
    DuplicateChecked P W req (l₀ ++ l) res := by
  have hl₀ : ∀ {ev}, ev ∈ l₀ ++ l → ev ∉ l → ev.effect.Quiet := fun hm hn =>
    h₀ _ ((List.mem_append.mp hm).resolve_right hn)
  refine ⟨fun since ex hm => ?_, fun hu st a hm => ?_⟩
  · by_cases hl : (⟨.findStoryByURL req.url since, .ok (some ex)⟩ : Prog.Event) ∈ l
    · refine ⟨(h.1 since ex hl).1, fun ev hev => ?_⟩
      by_cases hev' : ev ∈ l
      · exact (h.1 since ex hl).2 ev hev'
      · simp [(hl₀ hev hev').1]
    · exact absurd rfl ((hl₀ hm hl).2 _ _)
  · by_cases hl : (⟨.createStory st, a⟩ : Prog.Event) ∈ l
    · obtain ⟨t, hn, hf⟩ := h.2 hu st a hl
      exact ⟨t, List.mem_append_right _ hn, List.mem_append_right _ hf⟩
    · exact absurd (hl₀ hm hl).1 (by simp [Effect.table])

end DuplicateChecked

namespace Handler

variable (h : Handler)

theorem checkRateLimit_quiet (r : Request) (action : String) (limit : Int) :
    Prog.Within Effect.Quiet (h.checkRateLimit r action limit) := by
  unfold checkRateLimit Env.allow Env.retryAfter
  refine .bind (.effect ⟨rfl, by simp⟩) fun b => ?_
  dsimp only
  split
  · exact .pure _
  · exact .bind (.pure _) fun _ => .bind (.effect ⟨rfl, by simp⟩) fun _ => .pure _

theorem validateToken_quiet (r : Request) : Prog.Within Effect.Quiet (validateToken r) :=
  .ite (.pure _) (.bind (.effect ⟨rfl, by simp⟩) fun a => by cases a <;> exact .pure _)

theorem all_quiet_bind {β : Type} {P : Primitives} {W : Duration} {req : CreateStoryRequest} {p : Prog β}
    {f : β → Prog Response} (hp : Prog.Within Effect.Quiet p) (hf : ∀ b, (f b).All (DuplicateChecked P W req)) :
    (p >>= f).All (DuplicateChecked P W req) :=
  Prog.all_bind.mpr <| hp.all.imp fun l r hl => by
    cases r with
    | none => exact DuplicateChecked.of_quiet hl
    | some b => exact (hf b).imp fun _ _ h => h.append_quiet hl

theorem createStory_insert_noLookup (r : Request) (req : CreateStoryRequest) :
    Prog.Within (fun e => ∀ u since, e ≠ .findStoryByURL u since) (createStory.insert r req) := by
  unfold createStory.insert validateToken Service.validateToken Stmt.getToken Stmt.createStory
  repeat
    first
    | refine Prog.Within.bind ?_ fun _ => ?_
    | refine Prog.Within.ite ?_ ?_
    | exact Prog.Within.effect (by simp)
    | exact Prog.Within.pure _
    | split

theorem createStory_duplicateChecked (r : Request) (req : CreateStoryRequest) :
    (h.createStory r (some req)).All (DuplicateChecked h.prims h.cfg.duplicateWindow req) := by
  unfold createStory
  refine all_quiet_bind (h.checkRateLimit_quiet r _ _) fun ⟨allowed, ra⟩ => ?_
  have hins := (createStory_insert_noLookup r req).all
  have hnil : ∀ res, DuplicateChecked h.prims h.cfg.duplicateWindow req [] res := fun _ => .of_quiet (by simp)
  simp only [Prog.pure_eq, Prog.pure_bind']
  split
  · exact hnil _
  split
  · exact hnil _
  split
  · exact hnil _
  split
  · split
    · exact hnil _
    simp only [Env.now, Stmt.findStoryByURL, Prog.effect, Prog.exec_bind, Prog.all_exec, Prog.pure_bind',
      Effect.Answer]
    rintro t (e | _ | ex)
    · exact ⟨fun _ _ hm => by simp at hm, fun _ _ _ hm => by simp at hm⟩
    · refine hins.imp fun l _ hl => ⟨fun _ _ hm => ?_, fun _ _ _ _ => ⟨t, by simp, by simp⟩⟩
      simp only [List.mem_cons, Prog.Event.mk.injEq, reduceCtorEq, false_and, heq_eq_eq, false_or] at hm
      rcases hm with ⟨-, ⟨⟩⟩ | hm
      exact (hl _ hm _ _ rfl).elim
    · refine ⟨fun since ex' hm => ?_, fun _ _ _ hm => by simp at hm⟩
      simp only [List.mem_cons, Prog.Event.mk.injEq, reduceCtorEq, false_and, heq_eq_eq, false_or,
        List.not_mem_nil, or_false] at hm
      obtain ⟨-, ⟨⟩⟩ := hm
      exact ⟨rfl, by simp [Effect.table]⟩
  next hu =>
    exact hins.imp fun l _ hl => ⟨fun _ _ hm => (hl _ hm _ _ rfl).elim, fun hu' => absurd (by simpa using hu') hu⟩

theorem protect_duplicateChecked (routing : Routing) {next : Context → Prog Response} (r : Request)
    {P : Primitives} {W : Duration} {req : CreateStoryRequest} (hn : ∀ ctx, (next ctx).All (DuplicateChecked P W req)) :
    (protect routing next r).All (DuplicateChecked P W req) := by
  cases routing
  case bare => exact hn _
  case requireAuth =>
    refine all_quiet_bind (validateToken_quiet r) fun a => ?_
    split
    · exact hn _
    · exact .of_quiet (by simp)

end Handler

-- Of two rows of the story table, the first inserted before the second: when both are visible
-- and carry one URL, the second was created at least `W` after the first.
def Story.Spaced (W : Duration) (a b : Story) : Prop :=
  a.hidden = false → b.hidden = false → nullEq a.url b.url = true → a.createdAt + W ≤ b.createdAt

def Store.Spaced (W : Duration) (s : Store) : Prop :=
  s.stories.Pairwise (Story.Spaced W)

-- A change of every row that keeps its URL and creation time and shows no hidden row.
theorem Store.Spaced.map {W : Duration} {l : List Story} {f : Story → Story}
    (hf : ∀ st, (f st).url = st.url ∧ (f st).createdAt = st.createdAt ∧ ((f st).hidden = false → st.hidden = false))
    (h : l.Pairwise (Story.Spaced W)) : (l.map f).Pairwise (Story.Spaced W) :=
  List.pairwise_map.mpr <| h.imp fun {a b} hab ha hb hu => by
    obtain ⟨ua, ca, ha'⟩ := hf a
    obtain ⟨ub, cb, hb'⟩ := hf b
    rw [ua, ub] at hu
    rw [ca, cb]
    exact hab (ha' ha) (hb' hb) hu

-- Every statement but an insert of a story keeps the rows spaced.
theorem Effect.Can.spaced {W : Duration} {s s' : Store} {e : Effect} {a : e.Answer} (h : Effect.Can s e a s')
    (he : ∀ st, e ≠ .createStory st) (hs : s.Spaced W) : s'.Spaced W := by
  obtain ⟨t, rfl⟩ := h.apply
  cases e
  case createStory st => exact absurd rfl (he st)
  case updateStoryScore | updateStoryCommentCount | hideStory =>
    rcases a with _ | _
    · exact hs
    · exact Store.Spaced.map (fun st => by split <;> simp) hs
  case createComment | updateCommentScore | hideComment | createVote | updateVote | createAccount
    | createAccountKey | revokeAccountKey | createChallenge | deleteChallenge | createToken =>
    rcases a with _ | _ <;> exact hs
  all_goals exact hs

theorem Effect.Quiet.not_createStory {e : Effect} (h : e.Quiet) (st : Story) : e ≠ .createStory st := by
  rintro rfl
  cases h.1

theorem all_spaced_bind {β : Type} {W : Duration} {p : Prog β} {f : β → Prog Response}
    (hp : Prog.Within (fun e => ∀ st, e ≠ .createStory st) p) (hf : ∀ b, (f b).All fun l _ => KeepsAt (Store.Spaced W) l) :
    (p >>= f).All fun l _ => KeepsAt (Store.Spaced W) l :=
  Prog.all_keepsAt_bind (fun _ _ _ _ hc he hs => hc.spaced he hs) hp hf

-- An insert of a visible story of `url` at a clock reading at least `W` after every visible story
-- of that URL keeps the rows spaced.
theorem Store.Spaced.createStory {W : Duration} {st : Store} {story : Story} {c : Choice} {lim : MemoryLimiter}
    (hs : st.Spaced W) (hc : story.createdAt = zeroTime)
    (hb : ∀ a ∈ st.stories, a.hidden = false → nullEq a.url story.url = true → a.createdAt + W ≤ c.time) :
    ((Effect.createStory story).run c ⟨st, lim, c.time⟩).2.store.Spaced W := by
  rcases (World.exec_outcome ⟨st, lim, c.time⟩ c.fail (·.createStory story c.fresh c.time)).cases with
    ⟨_, -, e⟩ | ⟨b, hr, -⟩
  · exact e ▸ hs
  · obtain ⟨-, -, e⟩ := Store.createStory_eq_ok.mp hr
    refine (congrArg (Store.Spaced W) e).mpr (List.pairwise_append.mpr ⟨hs, List.pairwise_singleton _ _, ?_⟩)
    rintro x hx _ hy hxh - hxy
    obtain rfl := List.mem_singleton.mp hy
    exact (if_pos hc).symm ▸ hb x hx hxh hxy

namespace Handler

variable (h : Handler)

theorem createStory_insert_spaced (W : Duration) (r : Request) (req : CreateStoryRequest) :
    (createStory.insert r req).All fun l _ => ∀ t st st', ReplaysAt t st l st' → st.Spaced W →
      (∀ x ∈ st.stories, x.hidden = false → nullEq x.url req.url = true → x.createdAt + W ≤ t) → st'.Spaced W := by
  unfold createStory.insert
  split
  · exact fun _ _ _ h hs _ => (show _ = _ from h) ▸ hs
  · simp only [Prog.pure_eq, Prog.pure_bind']
    refine Prog.all_bind.mpr ((validateToken_quiet r).all.imp fun l₀ r₀ hl₀ => ?_)
    have hread : ∀ {t st st'}, ReplaysAt t st l₀ st' → st' = st := fun h =>
      replays_reads h.replays fun ev hev => (hl₀ ev hev).1
    cases r₀ with
    | none => exact fun _ _ _ h hs _ => hread h ▸ hs
    | some tok =>
      have key : ∀ story : Story, story.createdAt = zeroTime → story.url = req.url → ∀ a t st st',
          ReplaysAt t st (l₀ ++ [⟨.createStory story, a⟩]) st' → st.Spaced W →
          (∀ x ∈ st.stories, x.hidden = false → nullEq x.url req.url = true → x.createdAt + W ≤ t) →
          st'.Spaced W := by
        intro story hc hu a t st st' h hs hb
        obtain ⟨t', ht', s₁, h₁, c, lim, hct, -, h₂⟩ := h.append_elim
        obtain rfl := hread h₁
        exact (show st' = _ from h₂) ▸ hs.createStory hc fun x hx hxh hxy =>
          Int.le_trans (hb x hx hxh (hu ▸ hxy)) (Int.le_trans ht' hct)
      simp only [Option.elim_some, Option.elim_none, Stmt.createStory, Prog.effect, Prog.exec_bind, Prog.all_exec]
      intro a
      cases a <;> exact key _ rfl rfl _

variable {M : Duration} (hM : ∀ t, h.prims.localOffset t ≤ M)
include hM

-- On a server whose zone is at most `M` ahead of UTC, a submission keeps the visible stories of one
-- URL the window less `M` apart: its lookup misses no story created after that.
theorem createStory_spaced (r : Request) (body : Option CreateStoryRequest) :
    (h.createStory r body).All fun l _ => KeepsAt (Store.Spaced (h.cfg.duplicateWindow - M)) l := by
  unfold createStory
  refine all_spaced_bind ((h.checkRateLimit_quiet r _ _).mono fun _ he => he.not_createStory)
    fun ⟨allowed, ra⟩ => ?_
  have hnil : KeepsAt (Store.Spaced (h.cfg.duplicateWindow - M)) [] := .nil
  simp only [Prog.pure_eq, Prog.pure_bind']
  split
  · exact hnil
  split
  next req =>
    split
    · exact hnil
    split
    · exact hnil
    split
    · split
      · exact hnil
      simp only [Env.now, Stmt.findStoryByURL, Prog.effect, Prog.exec_bind, Prog.all_exec, Prog.pure_bind',
        Effect.Answer]
      rintro t₁ (e | _ | ex)
      · exact .of_forall (fun _ _ _ _ hc he hs => hc.spaced he hs) (by simp)
      · refine (createStory_insert_spaced (h.cfg.duplicateWindow - M) r req).imp fun l _ hl => ?_
        intro t st st' hr hs
        obtain ⟨c₁, _, -, ht₁, c₂, _, hc₂, hf, hr⟩ := hr
        obtain rfl : c₁.time = t₁ := ht₁
        obtain ⟨e, hno⟩ := Effect.can_findStoryByURL_none.mp (hf ▸ Effect.can_run c₂ _ _)
        rw [e] at hr
        refine hl _ st st' hr hs fun x hx hxh hxy => ?_
        -- The story was not found, so it is no later than the lookup's clock reading.
        have hle : x.createdAt ≤ c₁.time - h.cfg.duplicateWindow + h.prims.localOffset (c₁.time - h.cfg.duplicateWindow) :=
          Int.not_lt.mp fun hlt => by simp [hno x hx hxy hlt] at hxh
        have hoff := hM (c₁.time - h.cfg.duplicateWindow)
        simp only [Time, Duration] at hle hoff hc₂ ⊢
        omega
      · exact .of_forall (fun _ _ _ _ hc he hs => hc.spaced he hs) (by simp)
    next hu =>
      refine (createStory_insert_spaced (h.cfg.duplicateWindow - M) r req).imp fun l _ hl => ?_
      intro t st st' hr hs
      refine hl t st st' hr hs fun x _ _ hxy => ?_
      rw [show req.url = "" by simpa using hu] at hxy
      simp [nullEq] at hxy
  · exact hnil

omit hM in
theorem hide_not_createStory (r : Request) (body : Option HideRequest) :
    Prog.Within (fun e => ∀ st, e ≠ .createStory st) (h.hide r body) := by
  unfold hide hide.finish Stmt.getStory Stmt.hideStory Stmt.getComment Stmt.hideComment
  repeat
    first
    | refine Prog.Within.bind ?_ fun _ => ?_
    | refine Prog.Within.ite ?_ ?_
    | exact Prog.Within.effect (by simp)
    | exact Prog.Within.pure _
    | split

-- A story submission or a hide keeps the rows spaced.
theorem serve_keepsSpaced (routing : Routing) (a : ApiRequest)
    (ha : (∃ b, a.call = .createStory b) ∨ ∃ b, a.call = .hide b) :
    (h.serve routing a).All fun l _ => KeepsAt (Store.Spaced (h.cfg.duplicateWindow - M)) l := by
  rcases a with ⟨call, r⟩
  rcases ha with ⟨b, rfl⟩ | ⟨b, rfl⟩
  · cases routing
    case bare => exact h.createStory_spaced hM r b
    case requireAuth =>
      refine all_spaced_bind ((validateToken_quiet r).mono fun _ he => he.not_createStory) fun a => ?_
      split
      · exact h.createStory_spaced hM r b
      · exact .nil
  · exact (h.hide_not_createStory r b).all.imp fun _ _ hl => .of_forall (fun _ _ _ _ hc he hs => hc.spaced he hs) hl

end Handler

end Slashclaw
