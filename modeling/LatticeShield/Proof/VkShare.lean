import LatticeShield.Lib.Lists
import LatticeShield.Proof.VkText

/-!
# A token is good for one download

The guarantee spans whole runs: entries leave the store in two places and a token that has left it
must never come back. The invariant therefore relates the store to the *history* of calls and
replies. What is in the store was issued, by a call with these key bytes and this expiry; what is
in the store and not marked used has never been served; and what was served was issued before. A
new token enters with a UUID that no earlier call drew, so none of this can be about it.

Nothing here needs the clock to be monotone.
-/

set_option autoImplicit false

namespace LatticeShield.VkShare

open Lib

/-! ## The history -/

/-- The event is a download of `token`. Answers with another status give nothing away of the key. -/
def Event.serves (token : String) (e : Event) : Bool :=
  match e.call, e.reply with
  | .fetch t, .response r => decide (t = token) && decide (r.status = 200)
  | _, _ => false

/-- The event is the `create_token` call that returned `token`, for these key bytes. The
fingerprint it returned is theirs, too. -/
def Event.issues (env : Env) (token : String) (vkBytes : Bytes) (ttl : Nat) (e : Event) : Prop :=
  e.call = .create token vkBytes ttl ∧ e.reply = .created (.ok token (sha256Hex env vkBytes))

/-! ## What one call does -/

variable {env : Env} {store : VkShareStore}

/-- After `create_token` every entry is an old one, or the new one. Eviction only takes away. -/
theorem createToken_lookup {uuid token : String} {now ttl : Nat} {vkBytes : Bytes}
    {entry : VkShareEntry}
    (h : (createToken env store uuid now vkBytes ttl).2.lookup token = some entry) :
    store.lookup token = some entry ∨
      (token = uuid ∧ entry = ⟨hexEncode vkBytes, sha256Hex env vkBytes, now + ttl, false⟩ ∧
        (createToken env store uuid now vkBytes ttl).1 = .ok uuid (sha256Hex env vkBytes)) := by
  have hretain : ∀ {t e}, (Table.retain (fun _ v => decide (v.expiresAt > now)) store).lookup t =
      some e → store.lookup t = some e := by
    intro t e he
    rw [Table.lookup_retain, Option.filter_eq_some_iff] at he
    exact he.1
  unfold createToken at h ⊢
  dsimp only at h ⊢
  split at h
  · exact Or.inl (hretain h)
  · rename_i hcap
    split at h
    · exact Or.inl (hretain h)
    · rename_i hpanic
      by_cases htoken : token = uuid
      · subst htoken
        rw [AList.lookup_insert] at h
        refine Or.inr ⟨rfl, (Option.some.inj h).symm, ?_⟩
        rw [if_neg hcap, if_neg hpanic]
      · rw [AList.lookup_insert_ne htoken] at h
        exact Or.inl (hretain h)

theorem createToken_len (h : Table.len store ≤ env.maxTokens) (uuid : String) (now ttl : Nat)
    (vkBytes : Bytes) :
    Table.len (createToken env store uuid now vkBytes ttl).2 ≤ env.maxTokens := by
  have hretain := Table.len_retain_le (fun _ v => decide (v.expiresAt > now)) store
  unfold createToken
  dsimp only
  split
  · exact hretain.trans h
  · rename_i hcap
    split
    · exact hretain.trans h
    · exact (Table.len_insert_le _ _ _).trans (Nat.lt_of_not_le hcap)

/-- `vk_response` serves an entry that is unexpired and unused, and marks it; or it does not
serve, and at most removes an entry. These are all the ways in which a fetch changes the store. -/
theorem vkResponse_cases (store : VkShareStore) (token : String) (now : Nat) :
    (∃ entry, store.lookup token = some entry ∧ now ≤ entry.expiresAt ∧ entry.used = false ∧
      vkResponse store token now =
        (⟨200, vkBody entry.vkHex entry.fingerprint⟩,
          store.insert token { entry with used := true })) ∨
    ((vkResponse store token now).1.status ≠ 200 ∧
      Table.len (vkResponse store token now).2 ≤ Table.len store ∧
      ∀ t entry, (vkResponse store token now).2.lookup t = some entry →
        store.lookup t = some entry) := by
  unfold vkResponse
  split
  · exact Or.inr ⟨by simp [httpJsonResponse], le_rfl, fun _ _ h => h⟩
  · rename_i entry hentry
    split
    · refine Or.inr ⟨by simp [httpJsonResponse], Table.len_erase_le _ _, ?_⟩
      intro t e he
      by_cases ht : t = token
      · subst ht
        exact absurd he (by simp)
      · rwa [AList.lookup_erase_ne ht] at he
    · rename_i hexp
      split
      · exact Or.inr ⟨by simp [httpJsonResponse], le_rfl, fun _ _ h => h⟩
      · rename_i hused
        exact Or.inl ⟨entry, hentry, Nat.le_of_not_lt hexp, by simpa using hused, rfl⟩

/-! ## The invariant -/

structure Inv (env : Env) (w : World) : Prop where
  bounded : Table.len w.store ≤ env.maxTokens
  issued : ∀ token entry, w.store.lookup token = some entry → ∃ c ∈ w.events, ∃ vkBytes ttl,
    c.issues env token vkBytes ttl ∧ entry.vkHex = hexEncode vkBytes ∧
      entry.fingerprint = sha256Hex env vkBytes ∧ entry.expiresAt = c.now + ttl
  unserved : ∀ token entry, w.store.lookup token = some entry → entry.used = false →
    ∀ e ∈ w.events, e.serves token = false
  once : ∀ token, (w.events.filter (Event.serves token)).length ≤ 1
  served : ∀ pre e post, w.events = pre ++ e :: post → ∀ token, e.serves token = true →
    ∃ c ∈ pre, ∃ vkBytes ttl, c.issues env token vkBytes ttl ∧ e.now ≤ c.now + ttl ∧
      e.reply = .response ⟨200, vkBody (hexEncode vkBytes) (sha256Hex env vkBytes)⟩

theorem Inv.new (env : Env) : Inv env .new where
  bounded := Nat.zero_le _
  issued := by simp [World.new, newStore]
  unserved := by simp [World.new, newStore]
  once := by simp [World.new]
  served := by simp [World.new]

/-- A download in the history was issued in it. -/
theorem Inv.issued_of_served {w : World} (h : Inv env w) {e : Event} (he : e ∈ w.events)
    {token : String} (hs : e.serves token = true) :
    ∃ c ∈ w.events, ∃ vkBytes ttl, c.issues env token vkBytes ttl := by
  obtain ⟨pre, post, hsplit⟩ := List.append_of_mem he
  obtain ⟨c, hc, vkBytes, ttl, hissues, -⟩ := h.served pre e post hsplit token hs
  exact ⟨c, by rw [hsplit]; exact List.mem_append_left _ hc, vkBytes, ttl, hissues⟩

/-- What the history says about downloads, when its last event is not one. -/
theorem Inv.served_snoc {w : World} (h : Inv env w) {last : Event}
    (hlast : ∀ token, last.serves token = true → ∃ c ∈ w.events, ∃ vkBytes ttl,
      c.issues env token vkBytes ttl ∧ last.now ≤ c.now + ttl ∧
        last.reply = .response ⟨200, vkBody (hexEncode vkBytes) (sha256Hex env vkBytes)⟩)
    {pre post : List Event} {e : Event} (hsplit : w.events ++ [last] = pre ++ e :: post)
    {token : String} (hs : e.serves token = true) :
    ∃ c ∈ pre, ∃ vkBytes ttl, c.issues env token vkBytes ttl ∧ e.now ≤ c.now + ttl ∧
      e.reply = .response ⟨200, vkBody (hexEncode vkBytes) (sha256Hex env vkBytes)⟩ := by
  rcases List.eq_nil_or_concat post with rfl | ⟨post, x, rfl⟩
  · obtain ⟨hevents, hlasteq⟩ := List.append_inj' hsplit rfl
    obtain rfl : last = e := by simpa using hlasteq
    exact hevents ▸ hlast token hs
  · have hsplit' : w.events ++ [last] = (pre ++ e :: post) ++ [x] := by simpa using hsplit
    exact h.served pre e post (List.append_inj' hsplit' rfl).1 token hs

/-- A call that is no download: what is in the store was there before, or the call issued it and
nothing of that name has been downloaded. -/
theorem Inv.quiet {w w' : World} (h : Inv env w) {last : Event}
    (hevents : w'.events = w.events ++ [last]) (hlast : ∀ token, last.serves token = false)
    (hlen : Table.len w'.store ≤ env.maxTokens)
    (hentries : ∀ token entry, w'.store.lookup token = some entry →
      w.store.lookup token = some entry ∨
      (∃ vkBytes ttl, last.issues env token vkBytes ttl ∧ entry.vkHex = hexEncode vkBytes ∧
        entry.fingerprint = sha256Hex env vkBytes ∧ entry.expiresAt = last.now + ttl) ∧
      ∀ e ∈ w.events, e.serves token = false) :
    Inv env w' := by
  refine ⟨hlen, ?_, ?_, ?_, ?_⟩
  · intro token entry hlookup
    rw [hevents]
    rcases hentries token entry hlookup with hold | ⟨⟨vkBytes, ttl, hissued⟩, -⟩
    · obtain ⟨c, hc, hrest⟩ := h.issued token entry hold
      exact ⟨c, List.mem_append_left _ hc, hrest⟩
    · exact ⟨last, List.mem_append_right _ (List.mem_singleton_self _), vkBytes, ttl, hissued⟩
  · intro token entry hlookup hused
    rw [hevents]
    refine forall_mem_snoc.mpr ⟨?_, hlast token⟩
    intro e hearlier
    rcases hentries token entry hlookup with hold | ⟨-, hnone⟩
    · exact h.unserved token entry hold hused e hearlier
    · exact hnone e hearlier
  · intro token
    rw [hevents, List.filter_append, List.filter_singleton, hlast]
    simpa using h.once token
  · intro pre e post hsplit token hs
    rw [hevents] at hsplit
    exact h.served_snoc (fun t ht => absurd ht (by rw [hlast]; decide)) hsplit hs

/-- `create_token` with a UUID no earlier call drew. A UUID that came again would overwrite an
entry, and revive a token that was used. -/
theorem Inv.create {w : World} (h : Inv env w) (now : Nat) {uuid : String} (vkBytes : Bytes)
    (ttl : Nat) (hfresh : ∀ e ∈ w.events, ∀ vk t, e.call ≠ .create uuid vk t) :
    Inv env (w.step env (now, .create uuid vkBytes ttl)) := by
  refine h.quiet rfl (fun _ => rfl) (createToken_len h.bounded _ _ _ _) ?_
  intro token entry hlookup
  rcases createToken_lookup hlookup with hold | ⟨rfl, rfl, hok⟩
  · exact Or.inl hold
  · refine Or.inr ⟨⟨vkBytes, ttl, ⟨rfl, congrArg Reply.created hok⟩, rfl, rfl, rfl⟩, ?_⟩
    -- a download of this token would have been issued with its UUID
    intro e he
    cases hs : e.serves token with
    | false => rfl
    | true =>
      obtain ⟨c, hc, vk, t, hissues, -⟩ := h.issued_of_served he hs
      exact absurd hissues (hfresh c hc vk t)

/-- A download: the entry was unused, so the token has not been served before. From now on it is
used, for as long as it is in the store, and its name is never drawn again. -/
theorem Inv.download {w : World} (h : Inv env w) {now : Nat} {token : String} {entry : VkShareEntry}
    (hentry : w.store.lookup token = some entry) (hnow : now ≤ entry.expiresAt)
    (hunused : entry.used = false)
    (hresp : vkResponse w.store token now = (⟨200, vkBody entry.vkHex entry.fingerprint⟩,
      w.store.insert token { entry with used := true })) :
    Inv env (w.step env (now, .fetch token)) := by
  have hevents : (w.step env (now, .fetch token)).events =
      w.events ++ [⟨now, .fetch token, .response (vkResponse w.store token now).1⟩] := rfl
  have hstore : (w.step env (now, .fetch token)).store = (vkResponse w.store token now).2 := rfl
  obtain ⟨c, hc, vkBytes, ttl, hissues, hhex, hfp, hexp⟩ := h.issued token entry hentry
  have hbefore := h.unserved token entry hentry hunused
  have hlast : ∀ t, Event.serves t
      ⟨now, .fetch token, .response (vkResponse w.store token now).1⟩ = decide (token = t) := by
    intro t
    simp [Event.serves, hresp]
  have hlookup : ∀ t e, (w.step env (now, .fetch token)).store.lookup t = some e →
      (t = token ∧ e = { entry with used := true }) ∨
        (t ≠ token ∧ w.store.lookup t = some e) := by
    intro t e he
    rw [hstore, hresp] at he
    by_cases ht : t = token
    · subst ht
      rw [AList.lookup_insert] at he
      exact Or.inl ⟨rfl, (Option.some.inj he).symm⟩
    · rw [AList.lookup_insert_ne ht] at he
      exact Or.inr ⟨ht, he⟩
  refine ⟨?_, ?_, ?_, ?_, ?_⟩
  -- the entry is replaced, so there are as many as before
  · rw [hstore, hresp]
    show Table.len (w.store.insert token _) ≤ _
    rw [Table.len_insert_of_lookup hentry]
    exact h.bounded
  · intro t e he
    rcases hlookup t e he with ⟨rfl, rfl⟩ | ⟨-, hold⟩
    · exact ⟨c, List.mem_append_left _ hc, vkBytes, ttl, hissues, hhex, hfp, hexp⟩
    · obtain ⟨c', hc', hrest⟩ := h.issued t e hold
      exact ⟨c', List.mem_append_left _ hc', hrest⟩
  · intro t e he hused e' he'
    rcases hlookup t e he with ⟨rfl, rfl⟩ | ⟨ht, hold⟩
    -- the entry that was served is used from now on
    · exact absurd hused (by simp)
    · rw [hevents] at he'
      rcases List.mem_append.mp he' with he' | he'
      · exact h.unserved t e hold hused e' he'
      · rw [List.mem_singleton.mp he', hlast]
        simpa using fun heq => ht heq.symm
  · intro t
    rw [hevents, List.filter_append, List.filter_singleton, hlast]
    by_cases ht : token = t
    · subst ht
      have hnone : w.events.filter (Event.serves token) = [] := by
        rw [List.filter_eq_nil_iff]
        intro e he
        simp [hbefore e he]
      simp [hnone]
    · simpa [ht] using h.once t
  · intro pre e post hsplit t hs
    rw [hevents] at hsplit
    refine h.served_snoc ?_ hsplit hs
    intro t' ht'
    rw [hlast, decide_eq_true_eq] at ht'
    subst ht'
    refine ⟨c, hc, vkBytes, ttl, hissues, hexp ▸ hnow, ?_⟩
    rw [hresp, hhex, hfp]

theorem Inv.fetch {w : World} (h : Inv env w) (now : Nat) (token : String) :
    Inv env (w.step env (now, .fetch token)) := by
  rcases vkResponse_cases w.store token now with
    ⟨entry, hentry, hnow, hunused, hresp⟩ | ⟨hstatus, hlen, hsub⟩
  · exact h.download hentry hnow hunused hresp
  · have hevents : (w.step env (now, .fetch token)).events =
        w.events ++ [⟨now, .fetch token, .response (vkResponse w.store token now).1⟩] := rfl
    refine h.quiet hevents (?_) (hlen.trans h.bounded) fun t e he => Or.inl (hsub t e he)
    intro t
    simp [Event.serves, hstatus]

/-! ## Runs -/

theorem run_snoc (env : Env) (calls : List (Nat × Call)) (c : Nat × Call) :
    World.run env (calls ++ [c]) = (World.run env calls).step env c := by
  simp [World.run]

/-- Every `create_token` in the history drew its UUID in the run. -/
theorem mem_uuids_of_event (env : Env) (calls : List (Nat × Call)) {e : Event}
    (he : e ∈ (World.run env calls).events) {uuid : String} {vkBytes : Bytes} {ttl : Nat}
    (hcall : e.call = .create uuid vkBytes ttl) : uuid ∈ uuids calls := by
  induction calls using List.reverseRecOn with
  | nil => exact absurd he (by simp [World.run, World.new])
  | append_singleton calls c ih =>
    rw [run_snoc] at he
    rw [uuids, List.filterMap_append, List.mem_append]
    obtain ⟨now, call⟩ := c
    cases call with
    | create u vk t =>
      rcases List.mem_append.mp he with he | he
      · exact Or.inl (ih he)
      · rw [List.mem_singleton.mp he] at hcall
        obtain ⟨rfl, -⟩ := Call.create.inj hcall
        exact Or.inr (by simp)
    | fetch t =>
      rcases List.mem_append.mp he with he | he
      · exact Or.inl (ih he)
      · rw [List.mem_singleton.mp he] at hcall
        exact absurd hcall (by simp)

theorem run_inv (env : Env) {calls : List (Nat × Call)} (huuid : (uuids calls).Nodup) :
    Inv env (World.run env calls) := by
  induction calls using List.reverseRecOn with
  | nil => exact Inv.new env
  | append_singleton calls c ih =>
    have hsplit : uuids (calls ++ [c]) = uuids calls ++ uuids [c] := List.filterMap_append
    rw [hsplit] at huuid
    have hinv := ih (List.nodup_append.mp huuid).1
    rw [run_snoc]
    obtain ⟨now, call⟩ := c
    cases call with
    | create uuid vkBytes ttl =>
      refine hinv.create now vkBytes ttl ?_
      intro e he vk t hcall
      exact ((nodup_snoc (uuids calls) uuid).mp huuid).2 (mem_uuids_of_event env calls he hcall)
    | fetch token => exact hinv.fetch now token

/-- **Tokens are one-time, time-limited and bounded.** With distinct UUIDs, after any sequence of
`create_token` and `vk_response` calls: the store holds at most `max_tokens` entries; no token has
been downloaded twice; a download happened no later than its token's creation plus TTL, after the
call that returned the token; its body is the JSON text with that call's key bytes and their
SHA-256 fingerprint, and a JSON parser reads just these out of it; and a string that no call
returned was never downloaded. -/
theorem tokens_one_time (env : Env) (calls : List (Nat × Call)) (huuid : (uuids calls).Nodup) :
    Table.len (World.run env calls).store ≤ env.maxTokens ∧
    (∀ token, ((World.run env calls).events.filter (Event.serves token)).length ≤ 1) ∧
    (∀ pre e post, (World.run env calls).events = pre ++ e :: post →
      ∀ token, e.serves token = true →
        ∃ c ∈ pre, ∃ vkBytes ttl, c.issues env token vkBytes ttl ∧ e.now ≤ c.now + ttl ∧
          ∃ body, e.reply = .response ⟨200, body⟩ ∧
            body = "\x7b\"server_vk\":\"" ++ hexEncode vkBytes ++ "\",\"fingerprint\":\"" ++
              sha256Hex env vkBytes ++ "\"\x7d" ∧
            Js.Tells body vkBytes (env.sha256 vkBytes).toList) ∧
    ∀ token, (∀ e ∈ (World.run env calls).events, ∀ vkBytes ttl,
        ¬ e.issues env token vkBytes ttl) →
      ∀ e ∈ (World.run env calls).events, e.serves token = false := by
  have hinv := run_inv env huuid
  refine ⟨hinv.bounded, hinv.once, ?_, ?_⟩
  · intro pre e post hsplit token hs
    obtain ⟨c, hc, vkBytes, ttl, hissues, hnow, hreply⟩ := hinv.served pre e post hsplit token hs
    exact ⟨c, hc, vkBytes, ttl, hissues, hnow, _, hreply, Js.vkBody_eq _ _,
      Js.vkBody_tells vkBytes (env.sha256 vkBytes).toList⟩
  · intro token hnever e he
    cases hs : e.serves token with
    | false => rfl
    | true =>
      obtain ⟨c, hc, vkBytes, ttl, hissues⟩ := hinv.issued_of_served he hs
      exact absurd hissues (hnever c hc vkBytes ttl)

/-- One token, fetched twice. -/
theorem tokens_one_time_fetched_twice :
    (World.run ⟨fun _ => ⟨List.replicate 32 0, rfl⟩, 2 ^ 63, 1⟩
      [(5, .create "a" [1, 171] 10), (6, .fetch "a"), (7, .fetch "a")]).events.map Event.reply =
        [.created (.ok "a" (hexEncode (List.replicate 32 0))),
          .response ⟨200, "\x7b\"server_vk\":\"01ab\",\"fingerprint\":\"" ++
            "0000000000000000000000000000000000000000000000000000000000000000\"\x7d"⟩,
          .response ⟨410, "\x7b\"error\":\"token already used\"\x7d"⟩] ∧
    ((World.run ⟨fun _ => ⟨List.replicate 32 0, rfl⟩, 2 ^ 63, 1⟩
      [(5, .create "a" [1, 171] 10), (6, .fetch "a"), (7, .fetch "a")]).events.filter
        (Event.serves "a")).length ≤ 1 :=
  ⟨by decide +kernel, (tokens_one_time _ _ (by decide)).2.1 "a"⟩

end LatticeShield.VkShare
