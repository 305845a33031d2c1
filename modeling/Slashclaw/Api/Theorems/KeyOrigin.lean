import Slashclaw.Api.Theorems.Keys
import Slashclaw.Api.Theorems.Revocation

namespace Slashclaw

open Execution Relation Prog

-- Request `i` looked its bearer token `str` up, and `GetToken` returned `T`: a row of the
-- database it ran on, unexpired at that moment.
def ReadToken (tr : List Entry) (i : Nat) (str : String) (T : Token) : Prop :=
  ∃ y ∈ tr, y.proc = i ∧ y.event = ⟨.getToken str, .ok (some T)⟩ ∧ T ∈ y.world.store.tokens ∧
    T.token = str ∧ T.live y.time

-- Request `i`, serving `a` after the trace `tr`, changes the keys of account `A` from `s` to
-- `s'`: it adds a row of `A` as the `CreateAccount` request that inserted `A`, or as an
-- `AddAccountKey` or `DeleteAccountKey` request holding a token of `A`; or it revokes a row of
-- `A` as a `DeleteAccountKey` request holding a token of `A`.
def KeyChange (a : ApiRequest) (tr : List Entry) (i : Nat) (A : String) (s s' : Store) : Prop :=
  (∃ k, s'.keysOf A = s.keysOf A ++ [k] ∧
    (((∃ b, a.call = .createAccount b) ∧
        ∃ y ∈ tr, y.proc = i ∧ ∃ acc₀ acc, y.event = ⟨.createAccount acc₀, .ok acc⟩ ∧ acc.id = A) ∨
      (((∃ b, a.call = .addAccountKey b) ∨ a.call = .deleteAccountKey) ∧
        ∃ T, ReadToken tr i (getToken a.request) T ∧ T.accountID = A))) ∨
  ∃ id t, s' = s.revokeAccountKey id t ∧ (∃ k ∈ s.keysOf A, k.id = id) ∧ a.call = .deleteAccountKey ∧
    ∃ T, ReadToken tr i (getToken a.request) T ∧ T.accountID = A ∧ T.keyID ≠ id

-- The token `T` was written by a `CreateToken` of the trace, whose request had found before it
-- a live challenge for `T`'s agent, accepted a signature over it, and found the signing key as
-- an active key of `T`'s account, the key `T` names.
def TokenIssued (P : Primitives) (tr : List Entry) (T : Token) : Prop :=
  ∃ tr₁ x tr₂ T₀, tr = tr₁ ++ x :: tr₂ ∧ x.event.effect = .createToken T₀ ∧
    T = { T₀ with id := T.id, expiresAt := T.expiresAt } ∧
    ∃ str c pk sig k, verifySignature P c.algorithm pk str sig = .ok true ∧
      (∃ y ∈ tr₁, y.proc = x.proc ∧ y.event = ⟨.getChallenge str, .ok (some c)⟩ ∧
        c ∈ y.world.store.challenges ∧ c.challenge = str ∧ c.live y.time ∧ c.agentID = T.agentID) ∧
      (∃ y ∈ tr₁, y.proc = x.proc ∧ y.event = ⟨.getAccountKeyByPublicKey c.algorithm pk, .ok (some k)⟩ ∧
        k ∈ y.world.store.accountKeys ∧ k.active ∧ k.publicKey = pk ∧ k.accountID = T.accountID ∧
        k.id = T.keyID)

-- Of a state of the server: every step from it that changes the keys of an account is a
-- `KeyChange` of the request that takes it, and every token of an account was issued.
def KeysGuarded (h : Handler) (routing : Routing) (s : State ApiRequest Response) : Prop :=
  (∀ s' A, Step (h.serve routing) s s' → s'.world.store.keysOf A ≠ s.world.store.keysOf A →
    ∃ x p, s'.trace = s.trace ++ [x] ∧ s.procs[x.proc]? = some p ∧
      KeyChange p.req s.trace x.proc A s.world.store s'.world.store) ∧
  ∀ T ∈ s.world.store.tokens, T.accountID ≠ "" → TokenIssued h.prims s.trace T

namespace Execution.State.Wf

variable {handle : ApiRequest → Prog Response} {s : State ApiRequest Response} (hw : Wf handle s)
  {tr : List Entry} (htr : tr ⊆ s.trace) {i : Nat}
include hw htr

theorem readToken {str : String} {T : Token} (hm : ⟨.getToken str, .ok (some T)⟩ ∈ traceLog tr i) :
    ReadToken tr i str T :=
  have ⟨y, hy, hp, he, _, hc, hr⟩ := hw.read_entry htr hm
  have ⟨h₁, h₂, h₃⟩ := Effect.run_getToken hr
  ⟨y, hy, hp, he, h₁, h₂, hc ▸ h₃⟩

theorem keyOrigin_entries {a : ApiRequest} {A : String} (ho : keyOrigin a (traceLog tr i) A) :
    ((∃ b, a.call = .createAccount b) ∧
        ∃ y ∈ tr, y.proc = i ∧ ∃ acc₀ acc, y.event = ⟨.createAccount acc₀, .ok acc⟩ ∧ acc.id = A) ∨
      (((∃ b, a.call = .addAccountKey b) ∨ a.call = .deleteAccountKey) ∧
        ∃ T, ReadToken tr i (getToken a.request) T ∧ T.accountID = A) := by
  rcases ho with ⟨hc, acc₀, acc, hm, hA⟩ | ⟨hc, T, hm, hA⟩
  · obtain ⟨y, hy, hp, he⟩ := mem_traceLog.mp hm
    exact .inl ⟨hc, y, hy, hp, acc₀, acc, he, hA⟩
  · exact .inr ⟨hc, T, hw.readToken htr hm, hA⟩

end Execution.State.Wf

namespace Handler

variable (h : Handler) (routing : Routing) {s : State ApiRequest Response}

theorem keysUnique_of_reachable (hr : Reachable (h.serve routing) s) : s.world.store.KeysUnique :=
  have ⟨_, hr⟩ := hr
  Step.store_inv _ (fun _ _ _ _ hc hu => hc.keysUnique hu) (show Store.empty.KeysUnique from ⟨.nil, .nil⟩) hr

theorem grows_of_reachable (hr : Reachable (h.serve routing) s) :
    Chain (fun y st => y.world.store.Grows st) s :=
  have ⟨_, hr⟩ := hr
  Step.chain (fun _ _ hc => hc.grows) (fun _ _ _ _ _ hc hg => hg.trans hc.grows) hr

-- A step that changes the keys of `A` is an insert or a revocation that the request's guard
-- allowed; the revoked row is the one the request read under its id, so it belongs to the
-- account of the request's token.
theorem keyChange_of_step (hreach : Reachable (h.serve routing) s) {s' : State ApiRequest Response}
    {A : String} (hs : Step (h.serve routing) s s') (hA : s'.world.store.keysOf A ≠ s.world.store.keysOf A) :
    ∃ x p, s'.trace = s.trace ++ [x] ∧ s.procs[x.proc]? = some p ∧
      KeyChange p.req s.trace x.proc A s.world.store s'.world.store := by
  have hw := hreach.wf
  rcases hs.can with ⟨heq, -⟩ | ⟨i, c, e, req, k, hi, htr, hc⟩
  · exact absurd (by rw [heq]) hA
  refine ⟨_, ⟨req, _⟩, htr, hi, ?_⟩
  have hJ := hw.allowed_next (h.serve_guarded routing) hi
  rcases hc.keysOf_change hA with ⟨k₀, kk, hev, hk₀, hkeys⟩ | ⟨id, t, hev, hs', k', hk', rfl⟩
  · have he : e = .createAccountKey k₀ := congrArg Event.effect hev
    exact .inl ⟨_, hkeys, hk₀ ▸ hw.keyOrigin_entries (fun _ => id) (hJ.1 k₀ he)⟩
  · have he : e = .revokeAccountKey k'.id := congrArg Event.effect hev
    obtain ⟨hcall, key, T, hkey, hT, hA', hkid⟩ := hJ.2.1 _ he
    obtain ⟨y, hy, -, -, c, -, hr⟩ := hw.read_entry (fun _ => id) hkey
    obtain ⟨hmem, hid⟩ := Effect.run_getAccountKey hr
    have hk := List.mem_filter.mp hk'
    have hown : k'.accountID = key.accountID :=
      (keysUnique_of_reachable h routing hreach).accountID_eq ((grows_of_reachable h routing hreach).2 y hy)
        hmem hk.1 hid.symm
    refine .inr ⟨_, t, hs', ⟨k', hk', rfl⟩, hcall, T, hw.readToken (fun _ => id) hT, ?_, ?_⟩
    · rw [← hA', ← hown]
      simpa using hk.2
    · rw [← hid]
      exact Ne.symm hkid

-- A token of an account in the database was written by a `CreateToken` that its request's guard
-- allowed, so after the checks of `VerifyAndCreateToken`.
theorem tokenIssued_of_reachable (hreach : Reachable (h.serve routing) s) {T : Token}
    (hT : T ∈ s.world.store.tokens) (hA : T.accountID ≠ "") : TokenIssued h.prims s.trace T := by
  have hw := hreach.wf
  obtain ⟨_, hr⟩ := hreach
  rcases Step.provenance (·.tokens)
      (fun ev T => ∃ T₀, ev.effect = .createToken T₀ ∧ T = { T₀ with id := T.id, expiresAt := T.expiresAt })
      (fun _ _ _ _ hc _ hr => hc.token_mem hr) hr T hT with h₀ | ⟨x, hx, T₀, he, hT₀⟩
  · exact absurd h₀ (List.not_mem_nil _)
  obtain ⟨tr₁, tr₂, hsplit⟩ := List.mem_iff_append.mp hx
  have hsub : tr₁ ⊆ s.trace := hsplit ▸ List.subset_append_left _ _
  obtain ⟨p, -, hJ⟩ := hw.allowed_entry (h.serve_guarded routing) hsplit
  have hA₀ : T₀.accountID ≠ "" := (congrArg Token.accountID hT₀).symm.trans_ne hA
  obtain ⟨str, c, pk, sig, k, hc, hag, hv, hk, hacc, hkid⟩ := hJ.2.2 T₀ he hA₀
  obtain ⟨y, hy, hyp, hye, _, hyt, hcr⟩ := hw.read_entry hsub hc
  obtain ⟨z, hz, hzp, hze, _, -, hkr⟩ := hw.read_entry hsub hk
  obtain ⟨hcm, hcs, hcl⟩ := Effect.run_getChallenge hcr
  obtain ⟨hkm, -, hkp, hka⟩ := Effect.run_getAccountKeyByPublicKey hkr
  refine ⟨tr₁, x, tr₂, T₀, hsplit, he, hT₀, str, c, pk, sig, k, hv,
    ⟨y, hy, hyp, hye, hcm, hcs, hyt ▸ hcl, ?_⟩, ⟨z, hz, hzp, hze, hkm, hka, hkp, ?_, ?_⟩⟩
  · exact hag.trans (congrArg Token.agentID hT₀).symm
  · exact hacc.trans (congrArg Token.accountID hT₀).symm
  · exact hkid.trans (congrArg Token.keyID hT₀).symm

-- In every run, from the empty database, under either routing: the keys of an account change
-- only by its `CreateAccount` request or by requests holding a token of the account, and a token
-- of an account is issued only for a signature by an active key of that account.
theorem reachable_keysGuarded (hreach : Reachable (h.serve routing) s) : KeysGuarded h routing s :=
  ⟨fun _ _ hs hA => h.keyChange_of_step routing hreach hs hA,
    fun _ hT hA => h.tokenIssued_of_reachable routing hreach hT hA⟩

-- After two tokens of one account have revoked each other's keys: the account's two keys and two
-- tokens, next to the tokens of unregistered keys issued on the way.
set_option maxRecDepth 8000 in
theorem keysGuarded_revoked :
    let h := Handler.ofConfig Primitives.plain Config.load
    let s := (State.init 0).run (h.serve .bare) true mutualRevocationSchedule
    Reachable (h.serve .bare) s ∧ s.world.store.accountKeys.map (·.accountID) = ["ac", "ac"] ∧
      s.world.store.tokens.map (fun T => (T.token, T.accountID)) = [("ac", ""), ("t1", "ac"), ("k2", ""), ("t2", "ac")] ∧
      KeysGuarded h .bare s := by
  intro h s
  have hs : Reachable (h.serve .bare) s := ⟨0, State.run_steps _ _ _⟩
  exact ⟨hs, by decide, by decide, reachable_keysGuarded h .bare hs⟩

end Handler

end Slashclaw
