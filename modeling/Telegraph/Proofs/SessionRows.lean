import Telegraph.Sessions

namespace Telegraph
open Lib

/-- The row `create_session` inserts. -/
def NewOperatorSession.row (new : NewOperatorSession) : OperatorSession :=
  ⟨new.sessionHash, new.operatorUsername, new.csrfTokenHash, new.createdAt, new.lastSeenAt,
    new.idleExpiresAt, new.absoluteExpiresAt, none⟩

namespace OperatorSession

theorem touched_keeps (lastSeenAt idleExpiresAt : Int) :
    Table.KeepsKeys clash (·.touched lastSeenAt idleExpiresAt) := fun _ _ => ⟨rfl, rfl⟩

theorem revoked_keeps (at_ : Int) : Table.KeepsKeys clash (·.revoked at_) := fun _ _ => ⟨rfl, rfl⟩

end OperatorSession

namespace SessionTable
open Tokens AuthService
variable {sha256 : Bytes → Bytes} {t t' : SessionTable} {hash key : String}

theorem getSession_of_mem {s : OperatorSession} (hs : s ∈ t.rows) :
    t.getSession s.sessionHash = some s := by
  refine Table.find_of_mem hs (beq_self_eq_true _) fun a b ha hb => ?_
  exact beq_iff_eq.mpr ((beq_iff_eq.mp ha).trans (beq_iff_eq.mp hb).symm)

theorem sessionHash_eq {s : OperatorSession} (h : t.getSession hash = some s) : s.sessionHash = hash :=
  beq_iff_eq.mp (Table.find_mem h).2

theorem live_iff {s : OperatorSession} :
    live hash s = true ↔ s.sessionHash = hash ∧ s.revokedAt = none := by
  simp [live]

theorem createSession_ok {new : NewOperatorSession} (h : t.createSession new = .ok t') :
    t'.rows = t.rows ++ [new.row] := by
  unfold createSession at h
  split at h
  next u hu =>
    cases h
    exact (Table.insert_some hu).1
  next => cases h

theorem getSession_createSession {new : NewOperatorSession} (h : t.createSession new = .ok t') :
    t'.getSession key = (t.getSession key).or (if new.sessionHash == key then some new.row else none) := by
  unfold createSession at h
  split at h
  next u hu =>
    cases h
    exact Table.find_insert hu
  next => cases h

theorem startSession_ok {username : String} {entropy : Bytes} {now : Int} {started : StartedSession}
    (h : startSession sha256 username entropy now t = .ok (t', started)) :
    t.createSession (newSession sha256 username (generateToken entropy) now) = .ok t' := by
  unfold startSession at h
  cases hc : t.createSession (newSession sha256 username (generateToken entropy) now) with
  | error e => simp [hc, bind, Except.bind] at h
  | ok u =>
    simp only [hc, bind, Except.bind, Except.ok.injEq, Prod.mk.injEq] at h
    rw [h.1]

/-- An update of the live row counts it exactly when there is one. -/
theorem count_live : (t.count (live hash) == 1) = true ↔
    ∃ s, t.getSession hash = some s ∧ s.revokedAt = none := by
  have hrows : t.rows.filter (live hash) =
      (t.getSession hash).toList.filter (·.revokedAt.isNone) := by
    unfold getSession
    rw [← Table.filter_eq_toList, List.filter_filter]
    · congr 1
      funext s
      exact Bool.and_comm ..
    · intro a b ha hb
      exact beq_iff_eq.mpr ((beq_iff_eq.mp ha).trans (beq_iff_eq.mp hb).symm)
  unfold Table.count
  rw [hrows]
  cases t.getSession hash with
  | none => simp
  | some s => cases hr : s.revokedAt <;> simp [hr]

theorem getSession_touchSession {lastSeenAt idleExpiresAt : Int} :
    (t.touchSession hash lastSeenAt idleExpiresAt).1.getSession key =
      (t.getSession key).map fun s => if live hash s then s.touched lastSeenAt idleExpiresAt else s :=
  Table.find_update (h := OperatorSession.touched_keeps lastSeenAt idleExpiresAt) fun _ => rfl

theorem getSession_revokeSession {at_ : Int} :
    (t.revokeSession hash at_).1.getSession key =
      (t.getSession key).map fun s => if live hash s then s.revoked at_ else s :=
  Table.find_update (h := OperatorSession.revoked_keeps at_) fun _ => rfl

theorem refresh_fst {token : String} {session : OperatorSession} {now : Int} :
    (refresh sha256 token session now t).1 =
      (t.touchSession (hashToken sha256 token) now (refreshedIdle session now)).1 := by
  unfold refresh
  split
  next h => rw [h]
  next h => rw [h]

theorem evaluateSession_active {session : OperatorSession} {now : Int} :
    evaluateSession session now = .active ↔
      session.revokedAt = none ∧ now < session.idleExpiresAt ∧ now < session.absoluteExpiresAt := by
  unfold evaluateSession
  split
  next h => simp [Option.isSome_iff_ne_none.mp h]
  next h =>
    rw [Bool.not_eq_true, Option.isSome_eq_false_iff, Option.isNone_iff_eq_none] at h
    split
    next ha => simp; omega
    next ha =>
      split
      next hi => simp; omega
      next hi => simp [h]; omega

theorem findActive_some {token : String} {session : OperatorSession} {now : Int} :
    findActive sha256 token now t = some session ↔
      t.getSession (hashToken sha256 token) = some session ∧ evaluateSession session now = .active := by
  unfold findActive
  cases t.getSession (hashToken sha256 token) with
  | none => simp
  | some s =>
    by_cases ha : evaluateSession s now = .active
    · simp only [if_pos ha, Option.some.injEq]
      exact ⟨fun h => ⟨h, h ▸ ha⟩, fun h => h.1⟩
    · simp only [if_neg ha, Option.some.injEq, reduceCtorEq, false_iff, not_and]
      exact fun h => h ▸ ha

/-- An update that finds no live row leaves the table as it was. -/
theorem touchSession_lost {lastSeenAt idleExpiresAt : Int}
    (h : ∀ s, t.getSession hash = some s → s.revokedAt ≠ none) :
    (t.touchSession hash lastSeenAt idleExpiresAt).1 = t := by
  refine Table.update_eq_self (h := OperatorSession.touched_keeps lastSeenAt idleExpiresAt) fun s hs => ?_
  by_contra hl
  obtain ⟨hhash, hnone⟩ := live_iff.mp (Bool.not_eq_false _ ▸ hl)
  have hfound := getSession_of_mem hs
  rw [hhash] at hfound
  exact h s hfound hnone

/-- The update of `authenticate` decides by the row it finds, not by the one it read. -/
theorem refresh_some {token : String} {session s : OperatorSession} {now : Int}
    (found : t.getSession (hashToken sha256 token) = some s) (unrevoked : s.revokedAt = none) :
    (refresh sha256 token session now t).2 =
      some ⟨session.touched now (refreshedIdle session now), deriveCsrf sha256 token⟩ := by
  unfold refresh
  have hcount := count_live.mpr ⟨s, found, unrevoked⟩
  split
  next => rfl
  next h => exact absurd ((congrArg Prod.snd h).symm.trans hcount) (by simp)

theorem refresh_lost {token : String} {session : OperatorSession} {now : Int}
    (h : ∀ s, t.getSession (hashToken sha256 token) = some s → s.revokedAt ≠ none) :
    refresh sha256 token session now t = (t, none) := by
  unfold refresh
  split
  next hfound =>
    obtain ⟨s, hs, hn⟩ := count_live.mp (congrArg Prod.snd hfound)
    exact absurd hn (h s hs)
  next t' hlost =>
    have hkept := @touchSession_lost t _ now (refreshedIdle session now) h
    rw [hlost] at hkept
    rw [← hkept]

end SessionTable

open Tokens Function

/-- A digest that is `known` where it is known, and never one of those elsewhere. -/
def digestFrom (known : List (Bytes × Bytes)) (bytes : Bytes) : Bytes :=
  match known.find? (·.1 == bytes) with
  | some p => p.2
  | none => List.replicate 33 0 ++ bytes

theorem digestFrom_inj {known : List (Bytes × Bytes)} (size : ∀ p ∈ known, p.2.length = 32)
    (apart : ∀ p ∈ known, ∀ q ∈ known, p.2 = q.2 → p.1 = q.1) : Injective (digestFrom known) := by
  have kept : ∀ bytes p, known.find? (·.1 == bytes) = some p → p ∈ known ∧ p.1 = bytes := by
    intro bytes p h
    exact ⟨List.mem_of_find?_eq_some h, by simpa using List.find?_some h⟩
  have long : ∀ bytes : Bytes, (List.replicate 33 (0 : UInt8) ++ bytes).length ≠ 32 := by
    intro bytes
    simp
  intro a b h
  unfold digestFrom at h
  cases ha : known.find? (·.1 == a) with
  | none =>
    cases hb : known.find? (·.1 == b) with
    | none =>
      simp only [ha, hb] at h
      exact List.append_cancel_left h
    | some q =>
      simp only [ha, hb] at h
      exact absurd ((congrArg List.length h).trans (size q (kept b q hb).1)) (long a)
  | some p =>
    obtain ⟨hp, rfl⟩ := kept a p ha
    cases hb : known.find? (·.1 == b) with
    | none =>
      simp only [ha, hb] at h
      exact absurd ((congrArg List.length h).symm.trans (size p hp)) (long b)
    | some q =>
      obtain ⟨hq, rfl⟩ := kept b q hb
      simp only [ha, hb] at h
      exact apart p hp q hq h

/-- The token of 32 zero bytes. -/
def zeroToken : String := generateToken (List.replicate 32 0)

/-- The SHA-256 digests that one session with this token needs. -/
def zeroDigests : List (Bytes × Bytes) :=
  [(asBytes zeroToken, [96, 224, 91, 209, 177, 149, 175, 47, 148, 17, 47, 167, 25, 122, 92, 136, 40,
      144, 88, 132, 12, 231, 198, 223, 150, 147, 117, 107, 198, 37, 15, 85]),
    (asBytes zeroToken ++ csrfDomain, [34, 33, 190, 210, 13, 158, 60, 144, 100, 160, 44, 73, 28, 213,
      230, 152, 22, 63, 219, 235, 190, 78, 155, 222, 56, 97, 76, 4, 46, 27, 43, 134]),
    (asBytes "2221bed20d9e3c9064a02c491cd5e698163fdbebbe4e9bde38614c042e1b2b86",
      [7, 7, 201, 151, 169, 165, 150, 37, 164, 5, 180, 78, 5, 76, 117, 93, 9, 196, 137, 227, 171, 212,
      158, 226, 152, 100, 32, 162, 73, 20, 208, 235])]

theorem zeroDigests_inj : Injective (digestFrom zeroDigests) :=
  digestFrom_inj (by decide +kernel) (by decide +kernel)

end Telegraph
