import Slashclaw.Auth.Theorems.Challenge
import Slashclaw.Execution.Theorems.Timed

namespace Slashclaw

namespace Effect.Can

variable {s s' : Store}

-- What each statement of `VerifyAndCreateToken` may do to the database it runs on.

theorem getChallenge_read {x : String} {a : Except DBError (Option Challenge)}
    (h : Effect.Can s (.getChallenge x) a s') : s' = s :=
  have ⟨_, h⟩ := h
  h.read_eq

theorem getAccountKeyByPublicKey_ok {alg pk : String} {k : Option AccountKey}
    (h : Effect.Can s (.getAccountKeyByPublicKey alg pk) (.ok k) s') :
    s' = s ∧ k = s.getAccountKeyByPublicKey alg pk := by
  rcases Store.Outcome.cases h with ⟨_, h, -⟩ | ⟨_, hr, ha⟩
  · cases h
  · cases hr
    exact ⟨rfl, Except.ok.inj ha⟩

theorem deleteChallenge_keys {id : String} {d : Except DBError Unit} (h : Effect.Can s (.deleteChallenge id) d s') :
    s'.accountKeys = s.accountKeys := by
  rcases Store.Outcome.update h with ⟨rfl, -⟩ | ⟨rfl, -⟩ <;> rfl

-- An insert of a token with an id writes the token, its expiry cut to the second.
theorem createToken_row {T T' : Token} (h : Effect.Can s (.createToken T) (.ok T') s') (hid : T.id ≠ "") :
    { T with expiresAt := truncSecond T.expiresAt } ∈ s'.tokens := by
  obtain ⟨u, -, h⟩ := h
  rcases h.cases with ⟨_, h, -⟩ | ⟨b, hr, -⟩
  · cases h
  · obtain ⟨-, -, rfl⟩ := Store.createToken_eq_ok.mp hr
    simp [hid]

end Effect.Can

namespace Service

variable (P : Primitives) (svc : Service) (agentID alg publicKey x signature : String)

-- The log of a call: one that returned a token read the challenge, the clock, deleted the
-- challenge, looked the key up, drew the token and its id, read the clock and inserted the token
-- it returns; one that failed did so on the read, after the clock, or after the delete.
theorem verifyAndCreateToken_log :
    (svc.verifyAndCreateToken P agentID alg publicKey x signature).All fun l r =>
      (∀ T, r = some (.ok T) → ∃ ch t₁ d k t₂ T', ¬t₁ > ch.expiresAt ∧ ch.agentID = agentID ∧
        ch.algorithm = alg ∧ verifySignature P alg publicKey x signature = .ok true ∧
        (match k with
          | some K => T.accountID = K.accountID ∧ T.keyID = K.id
          | none => T.accountID = "" ∧ T.keyID = "unregistered:" ++ bytePrefix publicKey 16) ∧
        T.agentID = agentID ∧ T.expiresAt = t₂ + svc.tokenTTL ∧
        l = [⟨.getChallenge x, .ok (some ch)⟩, ⟨.now, t₁⟩, ⟨.deleteChallenge ch.id, d⟩,
          ⟨.getAccountKeyByPublicKey alg publicKey, .ok k⟩, ⟨.randomToken, T.token⟩, ⟨.uuid, T.id⟩,
          ⟨.now, t₂⟩, ⟨.createToken T, .ok T'⟩]) ∧
      (∀ e, r = some (.error e) → (∃ a, l = [⟨.getChallenge x, a⟩]) ∨
        (∃ ch t, l = [⟨.getChallenge x, .ok (some ch)⟩, ⟨.now, t⟩]) ∨
        (verifySignature P alg publicKey x signature = .ok true ∧ ∃ id d, ⟨.deleteChallenge id, d⟩ ∈ l)) := by
  simp only [verifyAndCreateToken, verifyAndCreateToken.issue, Stmt.getChallenge, Stmt.deleteChallenge,
    Stmt.getAccountKeyByPublicKey, Stmt.createToken, Env.randomToken, Env.uuid, Env.now, Prog.effect,
    Prog.exec_bind, Prog.pure_bind', Prog.pure_eq, Prog.all_exec, Effect.Answer]
  rintro (e | _ | ch)
  · simp only [Prog.all_pure]
    exact ⟨fun _ h => (nomatch h), fun _ _ => .inl ⟨_, rfl⟩⟩
  · simp only [Prog.all_pure]
    exact ⟨fun _ h => (nomatch h), fun _ _ => .inl ⟨_, rfl⟩⟩
  intro t₁
  simp only [Prog.all_ite]
  refine ⟨fun _ => ?_, fun hexp => ⟨fun _ => ?_, fun hmatch => ?_⟩⟩
  -- Refused before the signature is accepted: the log is the read and the clock.
  iterate 2
    simp only [Prog.all_pure]
    exact ⟨fun _ h => (nomatch h), fun _ _ => .inr (.inl ⟨ch, t₁, rfl⟩)⟩
  obtain ⟨hag, halg⟩ := not_or.mp hmatch
  split
  iterate 2
    simp only [Prog.all_pure]
    exact ⟨fun _ h => (nomatch h), fun _ _ => .inr (.inl ⟨ch, t₁, rfl⟩)⟩
  next hv =>
  intro d
  rintro (e | k)
  · simp only [Prog.all_pure]
    exact ⟨fun _ h => (nomatch h), fun _ _ => .inr (.inr ⟨hv, ch.id, d, by simp⟩)⟩
  intro tok id t₂
  -- The insert of the token: it fails, or the call returns the token it inserted.
  cases k with
  | some K =>
    simp only [Prog.all_exec]
    rintro (e | T')
    · simp only [Prog.all_pure]
      exact ⟨fun _ h => (nomatch h), fun _ _ => .inr (.inr ⟨hv, ch.id, d, by simp⟩)⟩
    · simp only [Prog.all_pure]
      refine ⟨fun T hT => ?_, fun _ h => (nomatch h)⟩
      cases hT
      exact ⟨ch, t₁, d, some K, t₂, T', hexp, not_not.mp hag, not_not.mp halg, hv, ⟨rfl, rfl⟩, rfl, rfl, rfl⟩
  | none =>
    dsimp only
    split
    · simp only [Prog.crash_bind, Prog.all_crash]
      exact ⟨fun _ h => (nomatch h), fun _ h => (nomatch h)⟩
    · simp only [Prog.all_exec]
      rintro (e | T')
      · simp only [Prog.all_pure]
        exact ⟨fun _ h => (nomatch h), fun _ _ => .inr (.inr ⟨hv, ch.id, d, by simp⟩)⟩
      · simp only [Prog.all_pure]
        refine ⟨fun T hT => ?_, fun _ h => (nomatch h)⟩
        cases hT
        exact ⟨ch, t₁, d, none, t₂, T', hexp, not_not.mp hag, not_not.mp halg, hv, ⟨rfl, rfl⟩, rfl, rfl, rfl⟩

-- A call that returns a token `T`, replayed from the database `st` at a clock reading `t₀`: its
-- `GetChallenge`, at a reading `t` no earlier than `t₀`, found in `st` a challenge with the string,
-- agent and algorithm of the call, live at `t`; the clock read next, `t₁`, was not after its expiry.
-- The signature was accepted, `T` carries the agent and expires `tokenTTL` after the clock reading
-- just before its insert, it is stored (its expiry to the second), and it names the active key of
-- the pair if `st` had one and is unregistered otherwise. When the call fails before the signature
-- is accepted, it leaves the database as it was.
theorem verifyAndCreateToken_contract (st : Store) :
    (svc.verifyAndCreateToken P agentID alg publicKey x signature).All fun l r => ∀ t₀ st', ReplaysAt t₀ st l st' →
      (∀ T, r = some (.ok T) →
        (∃ ch t t₁, l.take 2 = [⟨.getChallenge x, .ok (some ch)⟩, ⟨.now, t₁⟩] ∧ t₀ ≤ t ∧ t ≤ t₁ ∧
          ch ∈ st.challenges ∧ ch.challenge = x ∧ ch.live t ∧ t₁ ≤ ch.expiresAt ∧
          ch.agentID = agentID ∧ ch.algorithm = alg) ∧
        verifySignature P alg publicKey x signature = .ok true ∧
        (∃ l₁ t T', l = l₁ ++ [⟨.now, t⟩, ⟨.createToken T, .ok T'⟩] ∧ T.expiresAt = t + svc.tokenTTL) ∧
        T.agentID = agentID ∧ { T with expiresAt := truncSecond T.expiresAt } ∈ st'.tokens ∧
        ((∃ K ∈ st.accountKeys, K.active ∧ K.algorithm = alg ∧ K.publicKey = publicKey ∧
            T.accountID = K.accountID ∧ T.keyID = K.id) ∨
          ((∀ K ∈ st.accountKeys, K.algorithm = alg → K.publicKey = publicKey → K.active = false) ∧
            T.accountID = "" ∧ T.keyID = "unregistered:" ++ bytePrefix publicKey 16))) ∧
      (∀ e, r = some (.error e) → st' = st ∨
        (verifySignature P alg publicKey x signature = .ok true ∧ ∃ id d, ⟨.deleteChallenge id, d⟩ ∈ l)) := by
  refine (verifyAndCreateToken_log P svc agentID alg publicKey x signature).imp
    fun l r ⟨hok, herr⟩ t₀ st' hrt => ⟨fun T hT => ?_, fun e he => ?_⟩
  · obtain ⟨ch, t₁, d, k, t₂, T', hexp, hag, halg, hv, hk, hagT, hexpT, rfl⟩ := hok T hT
    -- The challenge's read and the clock reading checked against its expiry.
    have ⟨c₁, _, h₀, hgc, c₂, _, h₁, (ht₁ : c₂.time = t₁), _⟩ := hrt
    obtain ⟨hch, hx, hlive⟩ := Effect.run_getChallenge hgc
    obtain ⟨s₁, hgc, s₂, rfl, s₃, hdel, s₄, hlook, s₅, ⟨-, rfl⟩, s₆, ⟨hid, rfl⟩, s₇, rfl, s₈, hcre, rfl⟩ :=
      hrt.replays
    obtain rfl := hgc.getChallenge_read
    obtain ⟨rfl, rfl⟩ := hlook.getAccountKeyByPublicKey_ok
    have hkeys := hdel.deleteChallenge_keys
    refine ⟨⟨ch, c₁.time, t₁, rfl, h₀, ht₁ ▸ h₁, hch, hx, hlive, Int.not_lt.mp hexp, hag, halg⟩, hv, ⟨[_, _, _, _, _, _], t₂, T', rfl, hexpT⟩, hagT,
      hcre.createToken_row hid, ?_⟩
    rw [Store.getAccountKeyByPublicKey, hkeys] at hk
    split at hk
    · next K hK =>
      have hp := List.find?_some hK
      simp only [Bool.and_eq_true, beq_iff_eq] at hp
      exact .inl ⟨K, List.mem_of_find?_eq_some hK, hp.2, hp.1.1, hp.1.2, hk⟩
    · next hK =>
      refine .inr ⟨fun K hK' ha hpk => ?_, hk⟩
      have := List.find?_eq_none.mp hK K hK'
      simpa [ha, hpk] using this
  · have hr := hrt.replays
    rcases herr e he with ⟨a, rfl⟩ | ⟨ch, t, rfl⟩ | h
    · obtain ⟨s₁, hgc, rfl⟩ := hr
      exact .inl hgc.getChallenge_read
    · obtain ⟨s₁, hgc, s₂, rfl, rfl⟩ := hr
      exact .inl hgc.getChallenge_read
    · exact .inr h

-- A live challenge for `agent`, signed with an Ed25519 key of no account: the call returns an
-- unregistered token, and its run is one the contract speaks of.
theorem verifyAndCreateToken_contract_unregistered :
    let svc : Service := ⟨300 * second, 3600 * second⟩
    let k := "kkkkkkkkkkkkkkkkkkkkkkkkkkkkkkkk"
    let ch : Challenge := ⟨"c1", "agent", algEd25519, "ch", 300 * second⟩
    let st : Store := { Store.empty with challenges := [ch] }
    let T : Token := ⟨"id", "", "unregistered:" ++ bytePrefix k 16, "agent", "tk", second + 3600 * second⟩
    let l : List Prog.Event := [⟨.getChallenge "ch", .ok (some ch)⟩, ⟨.now, second⟩, ⟨.deleteChallenge "c1", .ok ()⟩,
      ⟨.getAccountKeyByPublicKey algEd25519 k, .ok none⟩, ⟨.randomToken, "tk"⟩, ⟨.uuid, "id"⟩, ⟨.now, second⟩,
      ⟨.createToken T, .ok T⟩]
    let st' : Store := { Store.empty with tokens := [{ T with expiresAt := truncSecond T.expiresAt }] }
    Prog.Steps (svc.verifyAndCreateToken Primitives.plain "agent" algEd25519 k "ch" ("ch" ++ k)) l (.pure (.ok T)) ∧
      ReplaysAt 0 st l st' ∧
      ∃ ch t t₁, l.take 2 = [⟨.getChallenge "ch", .ok (some ch)⟩, ⟨.now, t₁⟩] ∧ 0 ≤ t ∧ t ≤ t₁ ∧
        ch ∈ st.challenges ∧ ch.challenge = "ch" ∧ ch.live t ∧ t₁ ≤ ch.expiresAt ∧ ch.agentID = "agent" ∧
        ch.algorithm = algEd25519 := by
  intro svc k ch st T l st'
  have hs : Prog.Steps (svc.verifyAndCreateToken Primitives.plain "agent" algEd25519 k "ch" ("ch" ++ k)) l (.pure (.ok T)) :=
    .exec _ (.exec _ (.exec _ (.exec _ (.exec _ (.exec _ (.exec _ (.exec _ (.refl _))))))))
  have hr : ReplaysAt 0 st l st' :=
    ⟨⟨second, false, "x", by decide⟩, .new, by decide, rfl,
      ⟨second, false, "x", by decide⟩, .new, le_refl _, rfl,
      ⟨second, false, "x", by decide⟩, .new, le_refl _, rfl,
      ⟨second, false, "x", by decide⟩, .new, le_refl _, rfl,
      ⟨second, false, "tk", by decide⟩, .new, le_refl _, rfl,
      ⟨second, false, "id", by decide⟩, .new, le_refl _, rfl,
      ⟨second, false, "x", by decide⟩, .new, le_refl _, rfl,
      ⟨second, false, "x", by decide⟩, .new, le_refl _, rfl, rfl⟩
  exact ⟨hs, hr, ((verifyAndCreateToken_contract Primitives.plain svc "agent" algEd25519 k "ch" ("ch" ++ k) st).returns
    hs 0 st' hr).1 T rfl |>.1⟩

end Service

-- The facts of the Go library that the code relies on. To slice `publicKey[:16]`, standard base64
-- decodes `n` bytes of text to at most `3n/4` bytes, a PEM block spans more than 16 bytes of text,
-- and the DER of an RSA `SubjectPublicKeyInfo` is at least 12 bytes long; to hash addresses,
-- SHA-256 answers 32 bytes.
structure Primitives.Lawful (P : Primitives) : Prop where
  base64_length : ∀ s b, P.base64Decode s = some b → 4 * b.length ≤ 3 * s.utf8ByteSize
  pem_length : ∀ s b, P.pemDecode s = some b → 16 ≤ s.utf8ByteSize
  rsa_length : ∀ b k, P.parsePKIXPublicKey b = some (.rsa k) → 12 ≤ b.length
  sha256_length : ∀ b, (P.sha256 b).length = 32

-- A library with the facts on which runs can still be computed: base64 keeps the first three
-- quarters of the text's bytes, every digest is 32 zero bytes, and no PEM block or DER key is known.
def Primitives.packed : Primitives :=
  { Primitives.plain with
    base64Decode := fun s => some (s.toUTF8.data.toList.take (3 * s.utf8ByteSize / 4))
    sha256 := fun _ => List.replicate 32 0 }

theorem Primitives.packed_lawful : Primitives.packed.Lawful where
  base64_length s b h := by
    cases h
    have := List.length_take_le (3 * s.utf8ByteSize / 4) s.toUTF8.data.toList
    omega
  pem_length _ _ h := nomatch h
  rsa_length _ _ h := nomatch h
  sha256_length _ := List.length_replicate _ _

section Verify

variable {P : Primitives} {pk msg sig : String} {b : Bool}

-- `ed25519.Verify` is called only with a key of `PublicKeySize` bytes.
theorem verifyEd25519_key (h : verifyEd25519 P pk msg sig = .ok b) :
    ∃ key sigb, P.base64Decode pk = some key ∧ key.length = ed25519PublicKeySize ∧
      P.base64Decode sig = some sigb ∧ b = P.ed25519Verify key msg.toUTF8.data.toList sigb := by
  unfold verifyEd25519 at h
  split at h
  · cases h
  · next key hkey =>
    split at h
    · cases h
    · split at h
      · cases h
      · next sigb hsig => exact ⟨key, sigb, hkey, not_not.mp ‹_›, hsig, (Except.ok.inj h).symm⟩

theorem verifyRSA_parse {check : RSAPublicKey → List UInt8 → List UInt8 → Bool}
    (h : verifyRSA P check pk msg sig = .ok b) : ∃ k, parseRSAPublicKey P pk = .ok k := by
  unfold verifyRSA at h
  split at h
  · cases h
  · exact ⟨_, ‹_›⟩

variable (hP : P.Lawful)
include hP

theorem parseRSAPublicKey_length {k : RSAPublicKey} (h : parseRSAPublicKey P pk = .ok k) : 16 ≤ pk.utf8ByteSize := by
  unfold parseRSAPublicKey at h
  split at h
  · exact hP.pem_length _ _ ‹_›
  · split at h
    · cases h
    · next der hder =>
      split at h
      · have := hP.rsa_length _ _ ‹_›
        have := hP.base64_length _ _ hder
        omega
      · cases h

-- A key the verifier accepted is at least 16 bytes long: a base64 text of 32 bytes has 43
-- characters at least, and an RSA key is a PEM block or the base64 of its DER.
theorem verifySignature_length {alg : String} (h : verifySignature P alg pk msg sig = .ok true) :
    16 ≤ pk.utf8ByteSize := by
  unfold verifySignature at h
  split_ifs at h
  · obtain ⟨key, -, hkey, hlen, -⟩ := verifyEd25519_key h
    have := hP.base64_length _ _ hkey
    rw [hlen, ed25519PublicKeySize] at this
    omega
  · exact (verifyRSA_parse h).elim fun _ hk => parseRSAPublicKey_length hP hk
  · exact (verifyRSA_parse h).elim fun _ hk => parseRSAPublicKey_length hP hk

end Verify

namespace Service

variable {P : Primitives} (svc : Service) (agentID alg publicKey x signature : String)

-- With the library's facts, `VerifyAndCreateToken` never panics: it slices `publicKey[:16]` only
-- after the verifier accepted the key, which makes it 16 bytes long at least; and the Ed25519
-- verifier hands `ed25519.Verify` only keys of `PublicKeySize` bytes.
theorem verifyAndCreateToken_never_panics (hP : P.Lawful) :
    (svc.verifyAndCreateToken P agentID alg publicKey x signature).All (fun _ r => r.isSome) ∧
      (verifySignature P alg publicKey x signature = .ok true → 16 ≤ publicKey.utf8ByteSize) ∧
      ∀ pk msg sig b, verifyEd25519 P pk msg sig = .ok b → ∃ key sigb, P.base64Decode pk = some key ∧
        key.length = ed25519PublicKeySize ∧ P.base64Decode sig = some sigb ∧
        b = P.ed25519Verify key msg.toUTF8.data.toList sigb := by
  refine ⟨?_, verifySignature_length hP, fun _ _ _ _ h => verifyEd25519_key h⟩
  simp only [verifyAndCreateToken, verifyAndCreateToken.issue, Stmt.getChallenge, Stmt.deleteChallenge,
    Stmt.getAccountKeyByPublicKey, Stmt.createToken, Env.randomToken, Env.uuid, Env.now, Prog.effect,
    Prog.exec_bind, Prog.pure_bind', Prog.pure_eq, Prog.all_exec, Effect.Answer]
  rintro (e | _ | ch)
  · rfl
  · rfl
  intro t
  simp only [Prog.all_ite]
  refine ⟨fun _ => rfl, fun _ => ⟨fun _ => rfl, fun _ => ?_⟩⟩
  split
  · rfl
  · rfl
  next hv =>
  rintro d (e | k)
  · rfl
  intro tok id t₂
  cases k with
  | some K =>
    simp only [Prog.all_exec]
    rintro (e | T') <;> rfl
  | none =>
    dsimp only
    rw [if_neg (Nat.not_lt.mpr (verifySignature_length hP hv))]
    simp only [Prog.all_exec]
    rintro (e | T') <;> rfl

-- On the packed library, which has the facts.
theorem verifyAndCreateToken_never_panics_packed :
    let P := Primitives.packed
    P.Lawful ∧ ((Service.mk 0 0).verifyAndCreateToken P "agent" algEd25519 "key" "ch" "sig").All
      (fun _ r => r.isSome) ∧
      (verifySignature P algEd25519 "key" "ch" "sig" = .ok true → 16 ≤ "key".utf8ByteSize) ∧
      ∀ pk msg sig b, verifyEd25519 P pk msg sig = .ok b → ∃ key sigb, P.base64Decode pk = some key ∧
        key.length = ed25519PublicKeySize ∧ P.base64Decode sig = some sigb ∧
        b = P.ed25519Verify key msg.toUTF8.data.toList sigb :=
  ⟨Primitives.packed_lawful,
    verifyAndCreateToken_never_panics (Service.mk 0 0) "agent" algEd25519 "key" "ch" "sig" Primitives.packed_lawful⟩

end Service

end Slashclaw
