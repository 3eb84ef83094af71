import LatticeShield.Proof.VkShare

/-!
# What occupies the store, and what another token can do to one

Three things may happen to a token that is of no more use: `create_token` evicts it once it has
expired, `vk_response` removes it when it is asked for after that, and a used one just stays until
it expires. The last kind counts against the capacity (`capacity_counts_usable_iff`).

The two comparisons with the expiry do not agree at the instant itself. There `vk_response` still
answers and `create_token` already evicts, so whether a download at that instant succeeds depends
on whether somebody else asks for a token in it (`tokens_independent_iff`).
-/

set_option autoImplicit false

namespace LatticeShield.VkShare

open Lib

variable {env : Env}

/-! ## Capacity -/

/-- How many tokens `create_token` counts at `now`. Whether they have been used is not looked at. -/
def unexpired (store : VkShareStore) (now : Nat) : Nat :=
  Table.len (Table.retain (fun _ v => decide (v.expiresAt > now)) store)

/-- How many tokens `vk_response` would answer with 200 at `now`. At the very instant of expiry it
still does, and `create_token` no longer counts. -/
def usable (store : VkShareStore) (now : Nat) : Nat :=
  Table.len (Table.retain (fun _ v => decide (now ≤ v.expiresAt) && !v.used) store)

theorem createToken_tooMany_iff (store : VkShareStore) (uuid : String) (now ttl : Nat)
    (vkBytes : Bytes) :
    (createToken env store uuid now vkBytes ttl).1 = .tooManyTokens ↔
      env.maxTokens ≤ unexpired store now := by
  simp only [createToken, unexpired]
  split
  · rename_i hfull
    exact iff_of_true rfl hfull
  · rename_i hfull
    split
    · exact iff_of_false (by simp) hfull
    · exact iff_of_false (by simp) hfull

/-- No history makes the store larger than its capacity. -/
theorem run_bounded (env : Env) (calls : List (Nat × Call)) :
    Table.len (World.run env calls).store ≤ env.maxTokens := by
  induction calls using List.reverseRecOn with
  | nil => exact Nat.zero_le _
  | append_singleton calls c ih =>
    rw [run_snoc]
    obtain ⟨now, call⟩ := c
    cases call with
    | create uuid vkBytes ttl => exact createToken_len ih uuid now ttl vkBytes
    | fetch token =>
      rcases vkResponse_cases (World.run env calls).store token now with
        ⟨entry, hentry, -, -, hresp⟩ | ⟨-, hlen, -⟩
      · show Table.len (vkResponse _ _ _).2 ≤ _
        rw [hresp, Table.len_insert_of_lookup hentry]
        exact ih
      · exact hlen.trans ih

/-- **The capacity is of usable tokens, unless a used one is in the way.** A refusal means that
there are as many usable tokens as the cap allows, in the store that any history has left, exactly
when there is room by the count of the code, or every unexpired entry is unused. A token that has
been downloaded keeps its place until it expires. -/
theorem capacity_counts_usable_iff (env : Env) (calls : List (Nat × Call)) (uuid : String)
    (now ttl : Nat) (vkBytes : Bytes) :
    ((createToken env (World.run env calls).store uuid now vkBytes ttl).1 = .tooManyTokens →
      env.maxTokens ≤ usable (World.run env calls).store now) ↔
    (unexpired (World.run env calls).store now < env.maxTokens ∨
      ∀ token entry, (World.run env calls).store.lookup token = some entry →
        now < entry.expiresAt → entry.used = false) := by
  have hbounded := run_bounded env calls
  rw [createToken_tooMany_iff]
  generalize (World.run env calls).store = store at hbounded ⊢
  constructor
  · intro h
    by_contra hcond
    rw [not_or, not_lt] at hcond
    obtain ⟨hfull, hcond⟩ := hcond
    apply hcond
    intro token entry hlookup hlive
    by_contra hused
    rw [Bool.not_eq_false] at hused
    -- the used token is in the store and is not usable
    have hlt : usable store now < Table.len store :=
      Table.len_retain_lt hlookup (by simp [hused])
    have := h hfull
    omega
  · rintro (hroom | hunused) hfull
    · omega
    · apply hfull.trans
      apply Table.len_retain_mono
      intro token entry hlookup hlive
      have hnow : now < entry.expiresAt := by simpa using hlive
      simp [hnow.le, hunused token entry hlookup hnow]

/-- A store for one token, whose token has been fetched: nothing in it is usable, and there is no
room. -/
theorem capacity_taken_by_used_token :
    ¬ ∀ (env : Env) (calls : List (Nat × Call)) (uuid : String) (now ttl : Nat) (vkBytes : Bytes),
      (createToken env (World.run env calls).store uuid now vkBytes ttl).1 = .tooManyTokens →
        env.maxTokens ≤ usable (World.run env calls).store now := by
  intro h
  have hone := h ⟨fun _ => ⟨List.replicate 32 0, rfl⟩, 2 ^ 63, 1⟩
    [(5, .create "a" [1] 10), (6, .fetch "a")] "b" 7 10 [1]
  exact absurd (hone (by decide +kernel)) (by decide +kernel)

/-! ## Independence -/

/-- A call that is about other tokens: it draws another UUID, or fetches another token. It can
still drop a token, as every creation drops those that have expired. -/
def Call.Avoids (token : String) : Call → Prop
  | .create uuid _ _ => uuid ≠ token
  | .fetch t => t ≠ token

instance (token : String) : DecidablePred (Call.Avoids token)
  | .create uuid _ _ => inferInstanceAs (Decidable (uuid ≠ token))
  | .fetch t => inferInstanceAs (Decidable (t ≠ token))

def Call.isCreate : Call → Bool
  | .create _ _ _ => true
  | .fetch _ => false

theorem createToken_lookup_other {store : VkShareStore} {uuid token : String} (h : uuid ≠ token)
    (now ttl : Nat) (vkBytes : Bytes) :
    (createToken env store uuid now vkBytes ttl).2.lookup token =
      (store.lookup token).filter fun entry => decide (entry.expiresAt > now) := by
  simp only [createToken]
  split
  · exact Table.lookup_retain _ _ _
  · split
    · exact Table.lookup_retain _ _ _
    · rw [AList.lookup_insert_ne h.symm]
      exact Table.lookup_retain _ _ _

theorem vkResponse_lookup_other {store : VkShareStore} {t token : String} (h : t ≠ token)
    (now : Nat) : (vkResponse store t now).2.lookup token = store.lookup token := by
  rw [vkResponse]
  cases store.lookup t with
  | none => rfl
  | some entry =>
    dsimp only
    split
    · exact AList.lookup_erase_ne h.symm
    · split
      · rfl
      · exact AList.lookup_insert_ne h.symm

/-- What a call about other tokens does to this one: a `create_token` evicts it if it has
expired, and nothing else happens to it. -/
theorem step_lookup_other {token : String} {w : World} {c : Nat × Call} (h : c.2.Avoids token) :
    (w.step env c).store.lookup token =
      if c.2.isCreate then (w.store.lookup token).filter fun entry => decide (entry.expiresAt > c.1)
      else w.store.lookup token := by
  obtain ⟨now, call⟩ := c
  cases call with
  | create uuid vkBytes ttl => exact createToken_lookup_other h now ttl vkBytes
  | fetch t => exact vkResponse_lookup_other h now

/-- Calls about other tokens evict this one, or leave it as it is. Only a creation evicts, by the
time it is made at. -/
theorem foldl_lookup_other {token : String} {w : World} {others : List (Nat × Call)}
    (h : ∀ c ∈ others, c.2.Avoids token) :
    (others.foldl (World.step env) w).store.lookup token =
      (w.store.lookup token).filter fun entry =>
        others.all fun c => !c.2.isCreate || decide (entry.expiresAt > c.1) := by
  induction others generalizing w with
  | nil =>
    rw [List.foldl_nil]
    cases w.store.lookup token <;> rfl
  | cons c others ih =>
    rw [List.forall_mem_cons] at h
    rw [List.foldl_cons, ih h.2, step_lookup_other h.1]
    cases hcreate : c.2.isCreate with
    | false => simp [hcreate]
    | true => simp [hcreate, Option.filter_filter]

/-- Whether a token is answered, by its entry. -/
theorem vkResponse_ok_iff (store : VkShareStore) (token : String) (now : Nat) :
    (vkResponse store token now).1.status = 200 ↔
      ∃ entry, store.lookup token = some entry ∧ now ≤ entry.expiresAt ∧ entry.used = false := by
  rw [vkResponse]
  cases store.lookup token with
  | none => simp [httpJsonResponse]
  | some entry =>
    dsimp only
    split
    · rename_i hexpired
      simp [httpJsonResponse, Nat.not_le.mpr hexpired]
    · rename_i hlive
      split
      · rename_i hused
        simp [httpJsonResponse, hused]
      · rename_i hused
        simp [httpJsonResponse, Nat.le_of_not_lt hlive, hused]

/-- **Independence of tokens.** Calls about other tokens, none of them after `now`, change whether
a token is answered at `now` exactly when it expires at `now` and one of them creates a token at
`now`. The eviction and the response compare with the expiry the other way round at that one
instant. -/
theorem tokens_independent_iff {w : World} {token : String} {entry : VkShareEntry}
    (hentry : w.store.lookup token = some entry) (hunused : entry.used = false) {now : Nat}
    {others : List (Nat × Call)} (hothers : ∀ c ∈ others, c.2.Avoids token)
    (hbefore : ∀ c ∈ others, c.1 ≤ now) :
    ((vkResponse (others.foldl (World.step env) w).store token now).1.status = 200 ↔
      (vkResponse w.store token now).1.status = 200) ↔
    ¬ (entry.expiresAt = now ∧ ∃ c ∈ others, c.2.isCreate = true ∧ c.1 = now) := by
  have hwithout : (vkResponse w.store token now).1.status = 200 ↔ now ≤ entry.expiresAt := by
    rw [vkResponse_ok_iff, hentry]
    simp [hunused]
  have hwith : (vkResponse (others.foldl (World.step env) w).store token now).1.status = 200 ↔
      (∀ c ∈ others, c.2.isCreate = true → c.1 < entry.expiresAt) ∧ now ≤ entry.expiresAt := by
    rw [vkResponse_ok_iff, foldl_lookup_other hothers, hentry]
    simp [Option.filter_some, hunused, imp_iff_not_or, or_comm]
  rw [hwithout, hwith]
  constructor
  · rintro h ⟨rfl, c, hc, hcreate, hnow⟩
    have hkept := (h.mpr le_rfl).1 c hc hcreate
    omega
  · intro hboundary
    refine ⟨fun h => h.2, ?_⟩
    intro hlive
    refine ⟨?_, hlive⟩
    intro c hc hcreate
    have hle := hbefore c hc
    by_contra hevicted
    exact hboundary ⟨by omega, c, hc, hcreate, by omega⟩

/-- A token that expires at 10, asked for at 9 after another was made at 9. -/
theorem tokens_independent_before_expiry :
    let env : Env := ⟨fun _ => ⟨List.replicate 32 0, rfl⟩, 2 ^ 63, 3⟩
    let w := World.run env [(5, .create "a" [1] 5)]
    let others : List (Nat × Call) := [(7, .fetch "c"), (9, .create "b" [1] 5)]
    w.store.lookup "a" = some ⟨"01", hexEncode (List.replicate 32 0), 10, false⟩ ∧
      (∀ c ∈ others, c.2.Avoids "a") ∧ (∀ c ∈ others, c.1 ≤ 9) ∧
      ((vkResponse (others.foldl (World.step env) w).store "a" 9).1.status = 200 ↔
        (vkResponse w.store "a" 9).1.status = 200) := by
  intro env w others
  have hentry : w.store.lookup "a" = some ⟨"01", hexEncode (List.replicate 32 0), 10, false⟩ := by
    decide +kernel
  have hothers : ∀ c ∈ others, c.2.Avoids "a" := by decide
  have hbefore : ∀ c ∈ others, c.1 ≤ 9 := by decide
  exact ⟨hentry, hothers, hbefore,
    (tokens_independent_iff hentry rfl hothers hbefore).mpr fun h => absurd h.1 (by decide)⟩

/-- The same token asked for at 10: it is answered, unless another was made at 10. -/
theorem tokens_interfere_at_expiry :
    ¬ ∀ (env : Env) (calls others : List (Nat × Call)) (token : String) (entry : VkShareEntry)
      (now : Nat), (World.run env calls).store.lookup token = some entry → entry.used = false →
      (∀ c ∈ others, c.2.Avoids token) → (∀ c ∈ others, c.1 ≤ now) →
      ((vkResponse (others.foldl (World.step env) (World.run env calls)).store token now).1.status =
          200 ↔
        (vkResponse (World.run env calls).store token now).1.status = 200) := by
  intro h
  have hsame := h ⟨fun _ => ⟨List.replicate 32 0, rfl⟩, 2 ^ 63, 3⟩ [(5, .create "a" [1] 5)]
    [(10, .create "b" [1] 5)] "a" ⟨"01", hexEncode (List.replicate 32 0), 10, false⟩ 10
    (by decide +kernel) rfl (by decide) (by decide)
  exact absurd (hsame.mpr (by decide +kernel)) (by decide +kernel)

end LatticeShield.VkShare
