import PaymentConnector.VaultClient

/-!
# Secret paths

`_parse_kv2_path` takes a secret path apart into a mount point and a sub-path, and the
HTTP API reads `mount_point/data/sub_path`.  Both the path with `data` after the mount
point and the one without it name the same secret.

## Main results

* `parseKv2Path_of_segments` — the parser on a path of at least three segments.
* `kv2Path_inverts` — parsing inverts building, for every sub-path.
-/

namespace PaymentConnector

/-- The segments of a path. -/
def pathSegments (path : String) : List String := (path.toList.splitOn '/').map String.ofList

/-- The path of a list of segments. -/
def joinSegments (segments : List String) : String :=
  String.ofList (['/'].intercalate (segments.map String.toList))

/-- The request path of a KV v2 read. -/
def kv2RequestPath (mountPoint subPath : String) : String := mountPoint ++ "/data/" ++ subPath

/-! ## Segments -/

theorem pathSegments_ne_nil (path : String) : pathSegments path ≠ [] := by
  rw [pathSegments, ne_eq, List.map_eq_nil_iff]
  exact List.splitOn_ne_nil '/' path.toList

theorem map_toList_pathSegments (path : String) :
    (pathSegments path).map String.toList = path.toList.splitOn '/' := by
  have hid : String.toList ∘ String.ofList = id := funext fun cs => String.toList_ofList
  rw [pathSegments, List.map_map, hid, List.map_id]

/-- A path is its segments, joined. -/
theorem joinSegments_pathSegments (path : String) : joinSegments (pathSegments path) = path := by
  rw [joinSegments, map_toList_pathSegments, List.intercalate_splitOn, String.ofList_toList]

theorem joinSegments_cons (segment : String) {segments : List String} (h : segments ≠ []) :
    joinSegments (segment :: segments) = segment ++ "/" ++ joinSegments segments := by
  have hne : segments.map String.toList ≠ [] := fun hnil => h (List.map_eq_nil_iff.mp hnil)
  apply String.toList_inj.mp
  rw [joinSegments, List.map_cons, List.intercalate_cons_of_ne_nil hne]
  simp [joinSegments]

/-- A prefix without a slash is a segment. -/
theorem pathSegments_append {m : String} (hm : ¬ '/' ∈ m.toList) (s : String) :
    pathSegments (m ++ "/" ++ s) = m :: pathSegments s := by
  have hlist : (m ++ "/" ++ s).toList = m.toList ++ '/' :: s.toList := by simp
  rw [pathSegments, hlist, List.splitOn_append_cons_self_of_not_mem hm, List.map_cons,
    String.ofList_toList]
  rfl

/-- A path with a slash has more than one segment. -/
theorem pathSegments_of_mem {s : String} (h : '/' ∈ s.toList) :
    ∃ segment rest, pathSegments s = segment :: rest ∧ rest ≠ [] := by
  obtain ⟨before, after, hsplit⟩ := List.append_of_mem h
  rw [pathSegments, hsplit, List.splitOn_append_cons_self]
  cases hbefore : before.splitOn '/' with
  | nil => exact absurd hbefore (List.splitOn_ne_nil '/' before)
  | cons segment rest =>
      refine ⟨String.ofList segment, (rest ++ after.splitOn '/').map String.ofList, rfl, ?_⟩
      rw [ne_eq, List.map_eq_nil_iff]
      exact List.append_ne_nil_of_right_ne_nil rest (List.splitOn_ne_nil '/' after)

/-! ## The parser -/

/-- The sub-path of a path with three segments is what follows `data`, or everything after
the mount point. -/
theorem parseKv2Path_of_segments {path m segment : String} {rest : List String}
    (hpath : pathSegments path = m :: segment :: rest) (hrest : rest ≠ []) :
    parseKv2Path path =
      (m, joinSegments (if segment = "data" then rest else segment :: rest)) := by
  have hsplit : path.toList.splitOn '/' =
      m.toList :: segment.toList :: rest.map String.toList := by
    rw [← map_toList_pathSegments, hpath]
    rfl
  have hlength : ¬ (m.toList :: segment.toList :: rest.map String.toList).length < 3 := by
    have hpos : 0 < rest.length := List.length_pos_iff.mpr hrest
    simp only [List.length_cons, List.length_map]
    omega
  unfold parseKv2Path
  rw [hsplit]
  dsimp only
  rw [if_neg hlength]
  by_cases hdata : segment = "data"
  · have hsecond : (m.toList :: segment.toList :: rest.map String.toList)[1]? =
        some "data".toList := by
      rw [hdata]
      rfl
    rw [if_pos hsecond, if_pos hdata]
    show (String.ofList m.toList, joinSegments rest) = (m, joinSegments rest)
    rw [String.ofList_toList]
  · have hsecond : (m.toList :: segment.toList :: rest.map String.toList)[1]? ≠
        some "data".toList :=
      fun heq => hdata (String.toList_inj.mp (Option.some.inj heq))
    rw [if_neg hsecond, if_neg hdata]
    show (String.ofList m.toList, joinSegments (segment :: rest)) =
      (m, joinSegments (segment :: rest))
    rw [String.ofList_toList]

/-! ## The three laws -/

/-- A path with `data` after its mount point. -/
theorem parseKv2Path_data {m : String} (hm : ¬ '/' ∈ m.toList) (s : String) :
    parseKv2Path (m ++ "/data/" ++ s) = (m, s) := by
  have hdata : m ++ "/data/" ++ s = m ++ "/" ++ ("data" ++ "/" ++ s) := by
    apply String.toList_inj.mp
    simp
  have hsegments : pathSegments (m ++ "/data/" ++ s) = m :: "data" :: pathSegments s := by
    rw [hdata, pathSegments_append hm, pathSegments_append (by decide)]
  rw [parseKv2Path_of_segments hsegments (pathSegments_ne_nil s), if_pos rfl,
    joinSegments_pathSegments]

/-- A path without it. -/
theorem parseKv2Path_no_data {m s : String} (hm : ¬ '/' ∈ m.toList) (hs : '/' ∈ s.toList)
    (hfirst : (pathSegments s).head? ≠ some "data") : parseKv2Path (m ++ "/" ++ s) = (m, s) := by
  obtain ⟨segment, rest, hsegments, hrest⟩ := pathSegments_of_mem hs
  have hother : segment ≠ "data" := by
    intro hdata
    rw [hsegments, hdata] at hfirst
    exact hfirst rfl
  have hpath : pathSegments (m ++ "/" ++ s) = m :: segment :: rest := by
    rw [pathSegments_append hm, hsegments]
  rw [parseKv2Path_of_segments hpath hrest, if_neg hother, ← hsegments,
    joinSegments_pathSegments]

/-- Building a request path from the parts of a path puts `data` after its mount point,
unless it is there. -/
theorem kv2RequestPath_parse {path : String} (h : 3 ≤ (pathSegments path).length) :
    kv2RequestPath (parseKv2Path path).1 (parseKv2Path path).2 =
      if (pathSegments path)[1]? = some "data" then path
      else joinSegments ((pathSegments path).insertIdx 1 "data") := by
  match hsegments : pathSegments path with
  | [] | [m] | [m, segment] =>
      rw [hsegments] at h
      simp at h
  | m :: segment :: third :: rest =>
      have hrest : third :: rest ≠ [] := List.cons_ne_nil third rest
      have hbuild : ∀ segments : List String, segments ≠ [] →
          kv2RequestPath m (joinSegments segments) = joinSegments (m :: "data" :: segments) := by
        intro segments hne
        rw [joinSegments_cons m (List.cons_ne_nil _ _), joinSegments_cons "data" hne]
        apply String.toList_inj.mp
        simp [kv2RequestPath]
      rw [parseKv2Path_of_segments hsegments hrest]
      by_cases hdata : segment = "data"
      · have hsecond : (m :: segment :: third :: rest)[1]? = some "data" := congrArg some hdata
        rw [if_pos hdata, if_pos hsecond, hbuild _ hrest, ← joinSegments_pathSegments path,
          hsegments, hdata]
      · have hsecond : (m :: segment :: third :: rest)[1]? ≠ some "data" :=
          fun heq => hdata (Option.some.inj heq)
        rw [if_neg hdata, if_neg hsecond, hbuild _ (List.cons_ne_nil _ _)]
        rfl

/-- Parsing inverts building: with `data` after the mount point for every sub-path, and
without it for every sub-path of more than one segment that does not start with `data`.
Building inverts parsing for every path of at least three segments, up to that `data`. -/
theorem kv2Path_inverts :
    (∀ m s : String, ¬ '/' ∈ m.toList → parseKv2Path (m ++ "/data/" ++ s) = (m, s)) ∧
      (∀ m s : String, ¬ '/' ∈ m.toList → '/' ∈ s.toList →
        (pathSegments s).head? ≠ some "data" → parseKv2Path (m ++ "/" ++ s) = (m, s)) ∧
      ∀ path : String, 3 ≤ (pathSegments path).length →
        kv2RequestPath (parseKv2Path path).1 (parseKv2Path path).2 =
          if (pathSegments path)[1]? = some "data" then path
          else joinSegments ((pathSegments path).insertIdx 1 "data") :=
  ⟨fun _ s hm => parseKv2Path_data hm s,
    fun _ _ hm hs hfirst => parseKv2Path_no_data hm hs hfirst, fun _ h => kv2RequestPath_parse h⟩

/-- The path of the settings and the one that the rotation script names. -/
theorem kv2Path_inverts_settings :
    parseKv2Path "secret/data/orbitpay/vaultgateway" = ("secret", "orbitpay/vaultgateway") ∧
      parseKv2Path "secret/orbitpay/vaultgateway" = ("secret", "orbitpay/vaultgateway") :=
  ⟨kv2Path_inverts.1 "secret" "orbitpay/vaultgateway" (by decide),
    kv2Path_inverts.2.1 "secret" "orbitpay/vaultgateway" (by decide) (by decide)
      (by decide +kernel)⟩

end PaymentConnector
