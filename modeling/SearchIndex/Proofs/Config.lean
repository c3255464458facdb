import SearchIndex.Config

/-!
# Completed connections

A connection names a host unless the host is missing or empty, and a port if that is a text that is
not empty or a number other than zero (`NamesPort`). Completing a connection leaves what it names
(`Config.completes`); `Config.host?_complete` and `Config.port?_complete` tell what it names
afterwards.
-/

namespace SearchIndex

/-! ## What a connection names -/

namespace Index

/-- The value names a port: a text that is not empty, or a number other than zero. -/
inductive NamesPort : Json → Prop
  | text {s : String} (h : s ≠ "") : NamesPort (.str s)
  | number {n : Json.Number} (h : n.isZero = false) : NamesPort (.num n)

namespace Connection

variable {c : Connection}

/-- A host that is not empty is named. -/
theorem host?_of_named {host : String} (h : c.host = some host) (hne : host ≠ "") :
    c.host? = some host := by
  simp [host?, h, hne]

/-- Neither a missing nor an empty host is named. -/
theorem host?_of_unnamed (h : ∀ host, c.host = some host → host = "") : c.host? = none := by
  unfold host?
  cases hc : c.host with
  | none => rfl
  | some host => simp [h host hc]

/-- A port that is a text is named as it stands. -/
theorem port?_of_text {s : String} (h : c.port = some (.str s)) (hne : s ≠ "") :
    c.port? = some s := by
  simp [port?, h, hne]

/-- A port that is a number is named as numbers are written. -/
theorem port?_of_number {n : Json.Number} (h : c.port = some (.num n)) (hne : n.isZero = false) :
    c.port? = some (String.ofList n.text) := by
  simp [port?, h, hne]

/-- An empty text, zero and any other value name no port. -/
theorem port?_of_unnamed (h : ∀ v, c.port = some v → ¬NamesPort v) : c.port? = none := by
  cases hc : c.port? with
  | none => rfl
  | some port =>
    unfold port? at hc
    split at hc
    · next s hs =>
      by_cases hne : s = ""
      · simp [hne] at hc
      · exact absurd (.text hne) (h _ hs)
    · next n hn =>
      cases hzero : n.isZero with
      | true => simp [hzero] at hc
      | false => exact absurd (.number hzero) (h _ hn)
    · exact nomatch hc

/-- A value that names a port gives one. -/
theorem port?_isSome {v : Json} (h : c.port = some v) (hv : NamesPort v) : c.port?.isSome := by
  cases hv with
  | text hne => rw [port?_of_text h hne, Option.isSome_some]
  | number hne => rw [port?_of_number h hne, Option.isSome_some]

end Connection

end Index

open Index

/-! ## Completed connections -/

namespace Config

variable (config : Config) (c : Connection)

/-- The host is that of the connection or, without one, the configured one unless it is empty. -/
theorem host?_complete :
    (config.complete c).host? =
      c.host?.or (if config.target.host = "" then none else some config.target.host) := by
  cases hc : c.host? with
  | some host =>
    have hhost : ∀ port, (⟨c.host, port⟩ : Connection).host? = c.host? := fun _ => rfl
    rw [complete, hc, Option.isSome_some, if_pos rfl, hhost, hc, Option.some_or]
  | none =>
    have hhost : (config.complete c).host = some config.target.host := by
      rw [complete, hc]
      rfl
    by_cases hempty : config.target.host = ""
    · refine (if_pos hempty).symm ▸ Connection.host?_of_unnamed fun host hhost' => ?_
      exact (Option.some.inj (hhost.symm.trans hhost')) ▸ hempty
    · rw [Connection.host?_of_named hhost hempty, if_neg hempty, Option.none_or]

/-- Without a port of its own, a connection gets the configured one. -/
theorem port_complete_of_none (hc : c.port? = none) :
    (config.complete c).port = some (.num (.integer config.target.port)) := by
  rw [complete, hc]
  rfl

/-- The port is that of the connection or, without one, the configured one unless it is zero. -/
theorem port?_complete :
    (config.complete c).port? =
      c.port?.or (if config.target.port = 0 then none else some (toString config.target.port)) := by
  cases hc : c.port? with
  | some port =>
    have hport : ∀ host, (⟨host, c.port⟩ : Connection).port? = c.port? := fun _ => rfl
    rw [complete, hc, Option.isSome_some, if_pos rfl, hport, hc, Option.some_or]
  | none =>
    have hport := config.port_complete_of_none c hc
    by_cases hzero : config.target.port = 0
    · refine (if_pos hzero).symm ▸ Connection.port?_of_unnamed fun v hv hnames => ?_
      obtain rfl := Option.some.inj (hport.symm.trans hv)
      cases hnames with
      | number hne => simp [Json.Number.isZero, hzero] at hne
    · have hnonzero : Json.Number.isZero (.integer config.target.port) = false := by
        simpa [Json.Number.isZero] using hzero
      rw [Connection.port?_of_number hport hnonzero, if_neg hzero, Option.none_or,
        Json.Number.text, if_neg (by simp), Int.natAbs_natCast]
      rfl

/-- Completing a connection changes nothing that it names, and completing it again changes nothing
at all. -/
structure Completes : Prop where
  /-- A host that is named stays. -/
  host_kept : ∀ host, c.host = some host → host ≠ "" → (config.complete c).host = some host
  /-- A port that is named stays. -/
  port_kept : ∀ v, c.port = some v → NamesPort v → (config.complete c).port = some v
  /-- Once is enough. -/
  twice : config.complete (config.complete c) = config.complete c

/-- Completing leaves what is named and fills in what is not. -/
theorem completes : config.Completes c where
  host_kept := by
    intro host hc hne
    rw [complete, Connection.host?_of_named hc hne]
    exact hc
  port_kept := by
    intro v hc hv
    rw [complete, Connection.port?_isSome hc hv]
    exact hc
  twice := by
    have hhost : (config.complete (config.complete c)).host = (config.complete c).host := by
      cases hc : (config.complete c).host? with
      | some host => rw [complete, hc]; rfl
      | none =>
        rw [host?_complete, Option.or_eq_none_iff] at hc
        rw [complete, host?_complete, hc.1, hc.2, complete, hc.1]
        rfl
    have hport : (config.complete (config.complete c)).port = (config.complete c).port := by
      cases hc : (config.complete c).port? with
      | some port => rw [complete, hc]; rfl
      | none =>
        have hnone : c.port? = none := (Option.or_eq_none_iff.1 (port?_complete .. ▸ hc)).1
        rw [port_complete_of_none _ _ hc, port_complete_of_none _ _ hnone]
    exact (Connection.mk.injEq ..).mpr ⟨hhost, hport⟩

end Config

end SearchIndex
