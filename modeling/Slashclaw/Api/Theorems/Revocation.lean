import Slashclaw.Api.Routes
import Slashclaw.Execution.Schedule
import Slashclaw.Effect.Reads

namespace Slashclaw

open Execution Relation

-- An account registers a second key, and a token is issued for each key. Each token then revokes
-- the other token's key.
def mutualRevocationSchedule : List (Action ApiRequest) :=
  let k₁ := "kkkkkkkkkkkkkkkkkkkkkkkkkkkkkkkk"
  let k₂ := "qqqqqqqqqqqqqqqqqqqqqqqqqqqqqqqq"
  [.spawn ⟨.createChallenge (some ⟨"alice", algEd25519⟩), .ofHeaders "" ""⟩] ++
    List.replicate 4 (.exec 0 ⟨second, false, "c1", by decide⟩) ++
    [.spawn ⟨.createAccount (some ⟨"alice", "", "", k₁, algEd25519, "c1" ++ k₁, "c1"⟩), .ofHeaders "" ""⟩] ++
    List.replicate 11 (.exec 1 ⟨second, false, "ac", by decide⟩) ++
    [.spawn ⟨.createChallenge (some ⟨"alice", algEd25519⟩), .ofHeaders "" ""⟩] ++
    List.replicate 4 (.exec 2 ⟨second, false, "c2", by decide⟩) ++
    [.spawn ⟨.verifyChallenge (some ⟨"alice", algEd25519, k₁, "c2", "c2" ++ k₁⟩), .ofHeaders "" ""⟩] ++
    List.replicate 8 (.exec 3 ⟨second, false, "t1", by decide⟩) ++
    [.spawn ⟨.createChallenge (some ⟨"alice", algEd25519⟩), .ofHeaders "" ""⟩] ++
    List.replicate 4 (.exec 4 ⟨second, false, "c3", by decide⟩) ++
    [.spawn ⟨.addAccountKey (some ⟨k₂, algEd25519, "c3" ++ k₂, "c3"⟩),
      { Request.ofHeaders "Bearer t1" "" with pathID := "ac" }⟩] ++
    List.replicate 12 (.exec 5 ⟨second, false, "k2", by decide⟩) ++
    [.spawn ⟨.createChallenge (some ⟨"alice", algEd25519⟩), .ofHeaders "" ""⟩] ++
    List.replicate 4 (.exec 6 ⟨second, false, "c4", by decide⟩) ++
    [.spawn ⟨.verifyChallenge (some ⟨"alice", algEd25519, k₂, "c4", "c4" ++ k₂⟩), .ofHeaders "" ""⟩] ++
    List.replicate 8 (.exec 7 ⟨second, false, "t2", by decide⟩) ++
    [.spawn ⟨.deleteAccountKey, { Request.ofHeaders "Bearer t1" "" with pathID := "ac", pathKeyID := "k2" }⟩] ++
    List.replicate 3 (.exec 8 ⟨second, false, "x", by decide⟩) ++
    [.spawn ⟨.deleteAccountKey, { Request.ofHeaders "Bearer t2" "" with pathID := "ac", pathKeyID := "ac" }⟩] ++
    List.replicate 3 (.exec 9 ⟨second, false, "x", by decide⟩)

-- Served one at a time, every request succeeds: neither revocation is of the requesting token's
-- own key, and revocation leaves issued tokens valid. The account is left with no active key.
set_option maxRecDepth 8000 in
theorem deleteAccountKey_mutual_revocation :
    let h := Handler.ofConfig Primitives.plain Config.load
    let s := (State.init 0).run (h.serve .bare) true mutualRevocationSchedule
    ReflTransGen (SeqStep (h.serve .bare)) (.init 0) s ∧ s.Quiescent ∧
      (s.procs.map fun p => p.prog.result.map (·.status)) =
        [some 200, some 201, some 200, some 200, some 200, some 201, some 200, some 200, some 200, some 200] ∧
      s.world.store.accounts.map (·.id) = ["ac"] ∧
      s.world.store.accountKeys.map (fun k => (k.id, k.accountID, k.active)) = [("ac", "ac", false), ("k2", "ac", false)] := by
  intro h s
  exact ⟨State.run_seqSteps _ _, by decide⟩

namespace Effect.Can

variable {s s' : Store}

theorem getToken_some {x : String} {T : Token} (h : Effect.Can s (.getToken x) (.ok (some T)) s') :
    s' = s ∧ T ∈ s.tokens ∧ T.token = x := by
  obtain ⟨t, (⟨h, -⟩ | ⟨h, rfl⟩)⟩ := h
  · cases h
  · have hf := List.find?_some (Except.ok.inj h).symm
    simp only [Bool.and_eq_true, beq_iff_eq] at hf
    exact ⟨rfl, List.mem_of_find?_eq_some (Except.ok.inj h).symm, hf.1⟩

theorem getAccountKey_some {id : String} {k : AccountKey} (h : Effect.Can s (.getAccountKey id) (.ok (some k)) s') :
    s' = s ∧ k ∈ s.accountKeys ∧ k.id = id := by
  refine ⟨h.eq_of_read rfl, ?_⟩
  rcases h with ⟨h, -⟩ | ⟨h, -⟩
  · cases h
  · unfold Store.getAccountKey at h
    split at h
    · next k' hk =>
      cases h
      exact ⟨List.mem_of_find?_eq_some hk, by simpa using List.find?_some hk⟩
    · cases h

end Effect.Can

theorem Store.mem_revokeAccountKey {s : Store} {k : AccountKey} {id : String} (t : Time) (hk : k ∈ s.accountKeys)
    (hid : k.id ≠ id) : k ∈ (s.revokeAccountKey id t).accountKeys :=
  List.mem_map.mpr ⟨k, hk, by simp [hid]⟩

-- The logs of a `DeleteAccountKey` request: reads only, or reads and then its token, the key of the
-- path and its revocation, the token of the path's account and its key another.
def RevokeLog (r : Request) (l : List Prog.Event) : Prop :=
  (∀ ev ∈ l, ev.effect.table = none) ∨
    ∃ l₀ T key a, (∀ ev ∈ l₀, ev.effect.table = none) ∧
      l = l₀ ++ [⟨.getToken (getToken r), .ok (some T)⟩, ⟨.getAccountKey r.pathKeyID, .ok (some key)⟩,
        ⟨.revokeAccountKey r.pathKeyID, a⟩] ∧
      T.accountID = r.pathID ∧ key.accountID = r.pathID ∧ key.id ≠ T.keyID

theorem RevokeLog.read {r : Request} {l : List Prog.Event} (ev : Prog.Event) (he : ev.effect.table = none)
    (h : RevokeLog r l) : RevokeLog r (ev :: l) := by
  rcases h with h | ⟨l₀, T, key, a, h₀, rfl, hT⟩
  · exact .inl (List.forall_mem_cons.mpr ⟨he, h⟩)
  · exact .inr ⟨ev :: l₀, T, key, a, List.forall_mem_cons.mpr ⟨he, h₀⟩, rfl, hT⟩

namespace Handler

theorem deleteAccountKey_log (r : Request) : (deleteAccountKey r).All fun l _ => RevokeLog r l := by
  simp only [deleteAccountKey, validateToken, Service.validateToken, Stmt.getAccountKey, Stmt.getToken,
    Stmt.revokeAccountKey, Prog.effect, Prog.exec_bind, Prog.pure_bind', Prog.pure_eq, Prog.all_exec,
    Prog.all_ite, Effect.Answer]
  refine ⟨fun _ => .inl (by simp), fun _ => ?_⟩
  by_cases ht : getToken r = ""
  · simp [ht, RevokeLog]
  simp only [ht, if_false, Prog.exec_bind, Prog.all_exec, Prog.pure_bind']
  refine Except.forall'.mpr ⟨fun e => .inl (by simp [Effect.table]), Option.forall.mpr ⟨.inl (by simp [Effect.table]),
    fun T => ?_⟩⟩
  simp only [Prog.pure_bind', Prog.all_ite, Prog.all_exec, ne_eq]
  refine ⟨fun _ => .inl (by simp [Effect.table]), fun hA => Except.forall'.mpr ⟨fun e => .inl (by simp [Effect.table]),
    Option.forall.mpr ⟨.inl (by simp [Effect.table]), fun key => ?_⟩⟩⟩
  simp only [Prog.all_ite, Prog.all_exec]
  refine ⟨fun _ => .inl (by simp [Effect.table]), fun hk => ⟨fun _ => .inl (by simp [Effect.table]), fun hid a => ?_⟩⟩
  cases a <;> exact .inr ⟨[], T, key, _, by simp, rfl, not_not.mp hA, not_not.mp hk, hid⟩

theorem protect_revokeLog (routing : Routing) {next : Context → Prog Response} (r r' : Request)
    (hn : ∀ ctx, (next ctx).All fun l _ => RevokeLog r' l) : (protect routing next r).All fun l _ => RevokeLog r' l := by
  cases routing
  case bare => exact hn _
  case requireAuth =>
    simp only [protect, requireAuth, validateToken, Service.validateToken, Stmt.getToken, Prog.effect,
      Prog.exec_bind, Prog.pure_bind', Prog.pure_eq]
    split
    · simp [RevokeLog]
    · simp only [Prog.exec_bind, Prog.all_exec]
      rintro (e | _ | T)
      · exact .inl (by simp [Effect.table])
      · exact .inl (by simp [Effect.table])
      · exact (hn _).imp fun l _ h => h.read _ rfl

-- A `DeleteAccountKey` request, run alone from `st` under either routing, changes no key row but
-- those of the path's key id. It changes one only after `GetToken` returned a row of `st` for its
-- bearer token, of the path's account and with a `KeyID` other than the path's key, which is a key
-- of that account. So the key that authenticates the request stays as it was.
theorem deleteAccountKey_spares_token_key (h : Handler) (routing : Routing) (r : Request) (st : Store) :
    (h.serve routing ⟨.deleteAccountKey, r⟩).All fun l _ => ∀ st', Replays st l st' →
      (∀ k ∈ st.accountKeys, k.id ≠ r.pathKeyID → k ∈ st'.accountKeys) ∧
      (st'.accountKeys ≠ st.accountKeys → ∃ T ∈ st.tokens, T.token = getToken r ∧ T.accountID = r.pathID ∧
        T.keyID ≠ r.pathKeyID ∧ (∃ k ∈ st.accountKeys, k.id = r.pathKeyID ∧ k.accountID = r.pathID) ∧
        ∀ K ∈ st.accountKeys, K.id = T.keyID → K ∈ st'.accountKeys) := by
  refine (protect_revokeLog routing r r fun _ => deleteAccountKey_log r).imp fun l _ hl st' hr => ?_
  rcases hl with hl | ⟨l₀, T, key, a, h₀, rfl, hTA, hkA, hid⟩
  · rw [replays_reads hr hl]
    exact ⟨fun k hk _ => hk, fun h => absurd rfl h⟩
  obtain ⟨s₁, h₁, hr⟩ := replays_append.mp hr
  rw [replays_reads h₁ h₀] at hr
  obtain ⟨s₂, hT, s₃, hk, s₄, hrev, hs⟩ := hr
  obtain ⟨e₂, hTm, hTx⟩ := hT.getToken_some
  subst s₂
  obtain ⟨e₃, hkm, hkid⟩ := hk.getAccountKey_some
  subst s₃ s₄
  have frame : ∀ t, ∀ k ∈ st.accountKeys, k.id ≠ r.pathKeyID → k ∈ (st.revokeAccountKey r.pathKeyID t).accountKeys :=
    fun t k hk hne => Store.mem_revokeAccountKey t hk hne
  obtain ⟨t, hrev⟩ := hrev
  rcases hrev.update with ⟨e, -⟩ | ⟨e, -⟩ <;> rw [e]
  · exact ⟨fun k hk _ => hk, fun h => absurd rfl h⟩
  · exact ⟨frame t, fun _ => ⟨T, hTm, hTx, hTA, hkid ▸ Ne.symm hid, ⟨key, hkm, hkid, hkA⟩,
      fun K hK hKT => frame t K hK (hKT ▸ hkid ▸ Ne.symm hid)⟩⟩

-- An account with two keys and a token issued for the first: the token's holder revokes the second.
theorem deleteAccountKey_spares_token_key_revoke :
    let h := Handler.ofConfig Primitives.plain Config.load
    let r := { Request.ofHeaders "Bearer t1" "" with pathID := "ac", pathKeyID := "k2" }
    let K₂ : AccountKey := ⟨"k2", "ac", algEd25519, "k2", 0, none⟩
    let T : Token := ⟨"t", "ac", "ac", "alice", "t1", 3600 * second⟩
    let st : Store := { Store.empty with accountKeys := [⟨"ac", "ac", algEd25519, "k1", 0, none⟩, K₂], tokens := [T] }
    let l : List Prog.Event :=
      [⟨.getToken "t1", .ok (some T)⟩, ⟨.getAccountKey "k2", .ok (some K₂)⟩, ⟨.revokeAccountKey "k2", .ok ()⟩]
    let st' := st.revokeAccountKey "k2" 0
    Prog.Steps (h.serve .bare ⟨.deleteAccountKey, r⟩) l (.pure (writeJSON 200 .ok)) ∧ Replays st l st' ∧
      st'.accountKeys ≠ st.accountKeys ∧
      (∀ k ∈ st.accountKeys, k.id ≠ r.pathKeyID → k ∈ st'.accountKeys) ∧
      (st'.accountKeys ≠ st.accountKeys → ∃ T ∈ st.tokens, T.token = getToken r ∧ T.accountID = r.pathID ∧
        T.keyID ≠ r.pathKeyID ∧ (∃ k ∈ st.accountKeys, k.id = r.pathKeyID ∧ k.accountID = r.pathID) ∧
        ∀ K ∈ st.accountKeys, K.id = T.keyID → K ∈ st'.accountKeys) := by
  intro h r K₂ T st l st'
  have hs : Prog.Steps (h.serve .bare ⟨.deleteAccountKey, r⟩) l (.pure (writeJSON 200 .ok)) :=
    .exec _ (.exec _ (.exec _ (.refl _)))
  have hr : Replays st l st' := ⟨st, ⟨0, .inr ⟨rfl, rfl⟩⟩, st, .inr ⟨rfl, rfl⟩, st', ⟨0, .inr ⟨rfl, rfl⟩⟩, rfl⟩
  exact ⟨hs, hr, by decide, (deleteAccountKey_spares_token_key h .bare r st).returns hs st' hr⟩

end Handler

end Slashclaw
