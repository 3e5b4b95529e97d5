/-
# The key of a block-wise request

`coap_get_packet_uri_as_string` names the resource of a request, and `find_block_data` compares
the names of two transfers with `strcmp`.  The port is not in the name, and the host, the segments
of the path and those of the query are written one after the other without an escape, each
list up to its first NUL.

So two requests have one name exactly when one is the other respelled: with another port,
without what is behind a NUL, or with a separator moved between the text of a segment and the end of
one (`Respelled`).  Two transfers are kept apart if and only if they are not two spellings of one
resource (`separatesTransfers_iff`).
-/

import Lwm2m.Coap.Parse
import Lwm2m.Core.Request
import Lwm2m.Library.Separators
import Mathlib.Logic.Relation

namespace Lwm2m.Core

open Coap Code Library

/-! ### Resources and their spellings -/

/-- What a request says about the resource it is for. -/
@[ext] structure Resource where
  host : List Byte
  port : UInt16
  path : List (List Byte)
  query : List (List Byte)
  deriving DecidableEq, Repr

/-- The resource of a request. -/
def requestResource (packet : Packet) : Resource :=
  { host := packet.uriHost
    port := packet.uriPort
    path := packet.uriPath
    query := packet.uriQuery }

/-- Two requests for different resources are under different keys, and a transfer of the one is not
taken for a transfer of the other. -/
def SeparatesTransfers (p q : Packet) : Prop :=
  requestResource p ≠ requestResource q →
    coapGetPacketUriAsString p ≠ coapGetPacketUriAsString q ∧
    ∀ blockBuffer blockNum,
      prvMatchBlock1 (.uri (some (coapGetPacketUriAsString p)))
        ⟨.block1, .uri (some (coapGetPacketUriAsString q)), blockBuffer, blockNum⟩ = .ok false

/-- A list of segments up to its first NUL. -/
def segmentsUpToNul : List (List Byte) → List (List Byte)
  | [] => []
  | segment :: segments =>
    if 0 ∈ segment then [segment.takeWhile (· ≠ 0)] else segment :: segmentsUpToNul segments

namespace Resource

/-- The parts up to their first NUL. -/
def upToNul (r : Resource) : Resource :=
  { r with
    host := r.host.takeWhile (· ≠ 0)
    path := segmentsUpToNul r.path
    query := segmentsUpToNul r.query }

/-- No part holds a NUL. -/
structure NulFree (r : Resource) : Prop where
  host : 0 ∉ r.host
  path : ∀ segment ∈ r.path, 0 ∉ segment
  query : ∀ segment ∈ r.query, 0 ∉ segment

end Resource

/-- The query with the rest of a path in front: the text is one segment with the first one. -/
def prependQuery (text : List Byte) : List (List Byte) → List (List Byte)
  | [] => [text]
  | segment :: segments => (text ++ 0x3F :: segment) :: segments

/-- One resource written in two ways. -/
inductive Respelled : Resource → Resource → Prop
  | port (r : Resource) (port : UInt16) : Respelled r { r with port }
  | nul (r : Resource) : Respelled r r.upToNul
  /-- Without a path the name is that of the root. -/
  | root (host : List Byte) (port : UInt16) (query : List (List Byte)) :
    Respelled ⟨host, port, [], query⟩ ⟨host, port, [[]], query⟩
  /-- A slash in the host. -/
  | host {host segment : List Byte} {port : UInt16} {path query : List (List Byte)}
    (hpath : path ≠ []) (hnul : Resource.NulFree ⟨host ++ 0x2F :: segment, port, path, query⟩) :
    Respelled ⟨host ++ 0x2F :: segment, port, path, query⟩ ⟨host, port, segment :: path, query⟩
  /-- A slash in a segment of the path. -/
  | slash {host : List Byte} {port : UInt16} {path path' query : List (List Byte)}
    (hsplit : Split 0x2F path path') (hnul : Resource.NulFree ⟨host, port, path, query⟩) :
    Respelled ⟨host, port, path, query⟩ ⟨host, port, path', query⟩
  /-- A question mark in a segment of the path. -/
  | question {host segment text : List Byte} {port : UInt16}
    {before after query : List (List Byte)} (hnul : Resource.NulFree
      ⟨host, port, before ++ (segment ++ 0x3F :: text) :: after, query⟩) :
    Respelled ⟨host, port, before ++ (segment ++ 0x3F :: text) :: after, query⟩
      ⟨host, port, before ++ [segment], prependQuery (text ++ joined 0x2F after) query⟩
  /-- An ampersand in a segment of the query. -/
  | ampersand {host : List Byte} {port : UInt16} {path query query' : List (List Byte)}
    (hsplit : Split 0x26 query query') (hnul : Resource.NulFree ⟨host, port, path, query⟩) :
    Respelled ⟨host, port, path, query⟩ ⟨host, port, path, query'⟩

/-- Two resources that are one but for their spelling. -/
abbrev SameSpelling : Resource → Resource → Prop := Relation.EqvGen Respelled

/-! ### The text of a resource -/

/-- The name of a resource. -/
def resourceText (r : Resource) : CString :=
  let path := multiOptionAsString r.path 0x2F 0x2F
  [0x2F, 0x2F] ++ r.host.takeWhile (· ≠ 0) ++ (if path = [] then [0x2F] else path) ++
    multiOptionAsString r.query 0x3F 0x26

theorem coapGetPacketUriAsString_eq (packet : Packet) :
    coapGetPacketUriAsString packet = resourceText (requestResource packet) := rfl

/-- The text of a query. -/
def queryText : List (List Byte) → List Byte
  | [] => []
  | segment :: segments => 0x3F :: (segment ++ joined 0x26 segments)

theorem takeWhile_of_not_mem {l : List Byte} (h : 0 ∉ l) : l.takeWhile (· ≠ 0) = l :=
  List.takeWhile_eq_self_iff.mpr fun _ hb => decide_eq_true fun hzero => h (hzero ▸ hb)

variable {segments query query' path : List (List Byte)} {r r' : Resource} {host : List Byte}

theorem zero_not_mem_joined {sep : Byte} (hsep : sep ≠ 0) (h : ∀ segment ∈ segments, 0 ∉ segment) :
    0 ∉ joined sep segments := by
  intro hmem
  rcases mem_joined hmem with hzero | ⟨segment, hsegment, hzero⟩
  · exact hsep hzero.symm
  · exact h segment hsegment hzero

theorem multiOptionAsString_path (h : ∀ segment ∈ segments, 0 ∉ segment) :
    multiOptionAsString segments 0x2F 0x2F = joined 0x2F segments := by
  cases segments with
  | nil => rfl
  | cons segment segments => exact takeWhile_of_not_mem (zero_not_mem_joined (by decide) h)

theorem multiOptionAsString_query (h : ∀ segment ∈ segments, 0 ∉ segment) :
    multiOptionAsString segments 0x3F 0x26 = queryText segments := by
  cases segments with
  | nil => rfl
  | cons segment segments =>
    obtain ⟨hsegment, hsegments⟩ := List.forall_mem_cons.mp h
    have hzero : (0 : Byte) ∉ 0x3F :: (segment ++ joined 0x26 segments) := by
      rw [List.mem_cons, List.mem_append]
      rintro (hmark | hmem | hmem)
      · cases hmark
      · exact hsegment hmem
      · exact zero_not_mem_joined (by decide) hsegments hmem
    exact takeWhile_of_not_mem hzero

/-- The text of a resource without NULs. -/
theorem resourceText_of_nulFree (h : r.NulFree) :
    resourceText r = [0x2F, 0x2F] ++ r.host ++
      joined 0x2F (if r.path = [] then [[]] else r.path) ++ queryText r.query := by
  unfold resourceText
  rw [takeWhile_of_not_mem h.host, multiOptionAsString_path h.path, multiOptionAsString_query h.query]
  dsimp only
  cases r.path with
  | nil => rfl
  | cons segment segments =>
    rw [if_neg (List.cons_ne_nil _ _), joined_cons, if_neg (List.cons_ne_nil _ _)]

/-! ### A respelling keeps the text -/

theorem zero_not_mem_takeWhile (l : List Byte) : 0 ∉ l.takeWhile (· ≠ 0) := by
  intro h
  have hne := List.mem_takeWhile_imp h
  exact of_decide_eq_true hne rfl

theorem segmentsUpToNul_nulFree (segments : List (List Byte)) :
    ∀ segment ∈ segmentsUpToNul segments, 0 ∉ segment := by
  induction segments with
  | nil => exact fun segment h => absurd h List.not_mem_nil
  | cons first segments ih =>
    unfold segmentsUpToNul
    split_ifs with hzero
    · rintro segment hsegment
      rw [List.mem_singleton.mp hsegment]
      exact zero_not_mem_takeWhile first
    · exact List.forall_mem_cons.mpr ⟨hzero, ih⟩

theorem Resource.upToNul_nulFree (r : Resource) : r.upToNul.NulFree :=
  ⟨zero_not_mem_takeWhile r.host, segmentsUpToNul_nulFree r.path, segmentsUpToNul_nulFree r.query⟩

/-- What is behind the first NUL of the segments is not read. -/
theorem takeWhile_joined_segmentsUpToNul {sep : Byte} (hsep : sep ≠ 0)
    (segments : List (List Byte)) :
    (joined sep (segmentsUpToNul segments)).takeWhile (· ≠ 0) =
      (joined sep segments).takeWhile (· ≠ 0) := by
  have hcons (rest : List Byte) : (sep :: rest).takeWhile (· ≠ 0) =
      sep :: rest.takeWhile (· ≠ 0) := List.takeWhile_cons_of_pos (decide_eq_true hsep)
  induction segments with
  | nil => rfl
  | cons segment segments ih =>
    unfold segmentsUpToNul
    split_ifs with hzero
    · obtain ⟨text, rest, rfl, htext⟩ := List.eq_append_cons_of_mem hzero
      have hpos : ∀ b ∈ text, decide (b ≠ 0) = true := fun b hb =>
        decide_eq_true fun hb' => htext (hb' ▸ hb)
      have hcut : (text ++ 0 :: rest).takeWhile (· ≠ 0) = text := by
        rw [List.takeWhile_append_of_pos hpos, List.takeWhile_cons_of_neg (by decide),
          List.append_nil]
      rw [hcut, joined_cons, joined_cons, joined_nil, List.append_nil, hcons, hcons,
        takeWhile_of_not_mem htext, List.append_assoc, List.takeWhile_append_of_pos hpos,
        List.cons_append, List.takeWhile_cons_of_neg (by decide), List.append_nil]
    · have hpos : ∀ b ∈ segment, decide (b ≠ 0) = true := fun b hb =>
        decide_eq_true fun hb' => hzero (hb' ▸ hb)
      rw [joined_cons, joined_cons, hcons, hcons, List.takeWhile_append_of_pos hpos,
        List.takeWhile_append_of_pos hpos, ih]

theorem multiOptionAsString_segmentsUpToNul {first delimiter : Byte} (hfirst : first ≠ 0)
    (hdelimiter : delimiter ≠ 0) (segments : List (List Byte)) :
    multiOptionAsString (segmentsUpToNul segments) first delimiter =
      multiOptionAsString segments first delimiter := by
  -- The text is that of the delimiter with another first byte.
  have htext (segment : List Byte) (next : List (List Byte)) :
      multiOptionAsString (segment :: next) first delimiter =
        first :: ((joined delimiter (segment :: next)).takeWhile (· ≠ 0)).tail := by
    have hpos : decide (delimiter ≠ 0) = true := decide_eq_true hdelimiter
    have hpos' : decide (first ≠ 0) = true := decide_eq_true hfirst
    rw [joined_cons, List.takeWhile_cons, if_pos hpos, List.tail_cons, multiOptionAsString,
      List.cons_append, List.takeWhile_cons, if_pos hpos']
    rfl
  cases segments with
  | nil => rfl
  | cons segment segments =>
    have hcut := takeWhile_joined_segmentsUpToNul hdelimiter (segment :: segments)
    rw [htext segment segments, ← hcut]
    unfold segmentsUpToNul
    split_ifs
    · exact htext _ _
    · exact htext _ _

theorem resourceText_upToNul (r : Resource) : resourceText r.upToNul = resourceText r := by
  unfold resourceText Resource.upToNul
  rw [takeWhile_of_not_mem (zero_not_mem_takeWhile r.host),
    multiOptionAsString_segmentsUpToNul (by decide) (by decide),
    multiOptionAsString_segmentsUpToNul (by decide) (by decide)]

theorem queryText_prependQuery (text : List Byte) (query : List (List Byte)) :
    queryText (prependQuery text query) = 0x3F :: (text ++ queryText query) := by
  cases query with
  | nil => rw [prependQuery, queryText, queryText, joined_nil]
  | cons segment segments =>
    rw [prependQuery, queryText, queryText, List.append_assoc, List.cons_append]

theorem Respelled.nulFree (h : Respelled r r') (hr : r.NulFree) :
    r'.NulFree := by
  have hsplit {sep : Byte} {text text' : List Byte} (hnot : 0 ∉ text ++ sep :: text') :
      0 ∉ text ∧ 0 ∉ text' := by
    rw [List.mem_append, List.mem_cons] at hnot
    exact ⟨fun h => hnot (.inl h), fun h => hnot (.inr (.inr h))⟩
  cases h with
  | port r port => exact ⟨hr.host, hr.path, hr.query⟩
  | nul r => exact r.upToNul_nulFree
  | root host port query =>
    exact ⟨hr.host, List.forall_mem_singleton.mpr List.not_mem_nil, hr.query⟩
  | host hpath hnul =>
    obtain ⟨hhost, hsegment⟩ := hsplit hr.host
    exact ⟨hhost, List.forall_mem_cons.mpr ⟨hsegment, hr.path⟩, hr.query⟩
  | slash hsplit' hnul => exact ⟨hr.host, hsplit'.not_mem hr.path, hr.query⟩
  | ampersand hsplit' hnul => exact ⟨hr.host, hr.path, hsplit'.not_mem hr.query⟩
  | @question host segment text port before after query hnul =>
    obtain ⟨hbefore, hcons⟩ := List.forall_mem_append.mp hr.path
    obtain ⟨hmarked, hafter⟩ := List.forall_mem_cons.mp hcons
    obtain ⟨hsegment, htext⟩ := hsplit hmarked
    have hrest : 0 ∉ text ++ joined 0x2F after := by
      rw [List.mem_append]
      exact not_or.mpr ⟨htext, zero_not_mem_joined (by decide) hafter⟩
    refine ⟨hr.host, List.forall_mem_append.mpr
      ⟨hbefore, List.forall_mem_singleton.mpr hsegment⟩, ?_⟩
    cases query with
    | nil => exact List.forall_mem_singleton.mpr hrest
    | cons first query =>
      obtain ⟨hfirst, hquery⟩ := List.forall_mem_cons.mp hr.query
      refine List.forall_mem_cons.mpr ⟨?_, hquery⟩
      rw [List.mem_append, List.mem_cons]
      rintro (h | h | h)
      · exact hrest h
      · cases h
      · exact hfirst h

theorem queryText_of_split (h : Split 0x26 query query') :
    queryText query = queryText query' := by
  cases h with
  | here segment segment' segments =>
    simp only [queryText, joined_cons, List.append_assoc, List.cons_append]
  | there segment h => rw [queryText, queryText, h.joined_eq]

/-- **A respelling keeps the text.** -/
theorem Respelled.resourceText_eq (h : Respelled r r') :
    resourceText r = resourceText r' := by
  have htexts {r r' : Resource} (h : Respelled r r') (hnul : r.NulFree)
      (heq : r.host ++ joined 0x2F (if r.path = [] then [[]] else r.path) ++ queryText r.query =
        r'.host ++ joined 0x2F (if r'.path = [] then [[]] else r'.path) ++ queryText r'.query) :
      resourceText r = resourceText r' := by
    rw [resourceText_of_nulFree hnul, resourceText_of_nulFree (h.nulFree hnul)]
    simp only [List.append_assoc] at heq ⊢
    rw [heq]
  have hne {before after : List (List Byte)} {segment : List Byte} :
      before ++ segment :: after ≠ [] :=
    List.append_ne_nil_of_right_ne_nil _ (List.cons_ne_nil _ _)
  cases id h with
  | port r port => rfl
  | nul r => exact (resourceText_upToNul r).symm
  | root host port query => rfl
  | host hpath hnul =>
    refine htexts h hnul ?_
    rw [if_neg hpath, if_neg (List.cons_ne_nil _ _), joined_cons]
    simp only [List.append_assoc, List.cons_append]
  | @slash host port path path' query hsplit hnul =>
    have hpath : path ≠ [] := by cases hsplit <;> exact List.cons_ne_nil _ _
    refine htexts h hnul ?_
    rw [if_neg hpath, if_neg hsplit.ne_nil, hsplit.joined_eq]
  | question hnul =>
    refine htexts h hnul ?_
    rw [if_neg hne, if_neg hne, queryText_prependQuery]
    simp only [joined_append, joined_cons, joined_nil, List.append_assoc, List.cons_append,
      List.append_nil]
  | ampersand hsplit hnul =>
    refine htexts h hnul ?_
    rw [queryText_of_split hsplit]

/-! ### The plainest spelling -/

/-- Every separator ends a part. -/
structure Canonical (r : Resource) : Prop where
  port : r.port = 0
  host : ∀ b ∈ r.host, b ≠ 0x2F
  root : r.path ≠ []
  path : ∀ segment ∈ r.path, ∀ b ∈ segment, ¬ (b = 0x2F ∨ b = 0x3F)
  query : ∀ segment ∈ r.query, 0x26 ∉ segment
  nulFree : r.NulFree

theorem queryText_injective (h : ∀ segment ∈ query, ∀ b ∈ segment, ¬ b = 0x26)
    (h' : ∀ segment ∈ query', ∀ b ∈ segment, ¬ b = 0x26)
    (htext : queryText query = queryText query') : query = query' := by
  cases query with
  | nil =>
    cases query' with
    | nil => rfl
    | cons segment' segments' => cases htext
  | cons segment segments =>
    cases query' with
    | nil => cases htext
    | cons segment' segments' =>
      -- The mark in front stands for the separator.
      have hjoined : joined 0x26 (segment :: segments) ++ [] =
          joined 0x26 (segment' :: segments') ++ [] := by
        rw [queryText, queryText, List.cons.injEq] at htext
        rw [joined_cons, joined_cons, htext.2]
      exact (joined_append_inj (· = 0x26) rfl h h' (fun _ hb => absurd hb (Option.not_mem_none _))
        (fun _ hb => absurd hb (Option.not_mem_none _)) hjoined).1

/-- A text is that of one canonical resource. -/
theorem Canonical.eq_of_resourceText_eq (h : Canonical r) (h' : Canonical r')
    (htext : resourceText r = resourceText r') : r = r' := by
  rw [resourceText_of_nulFree h.nulFree, resourceText_of_nulFree h'.nulFree, if_neg h.root,
    if_neg h'.root] at htext
  simp only [List.append_assoc, List.append_cancel_left_eq] at htext
  have hslash {path : List (List Byte)} {rest : List Byte} (hpath : path ≠ []) :
      ∀ b ∈ (joined 0x2F path ++ rest).head?, b = 0x2F := by
    obtain ⟨segment, segments, rfl⟩ := List.exists_cons_of_ne_nil hpath
    rintro b hb
    cases hb
    rfl
  have hmark {query : List (List Byte)} :
      ∀ b ∈ (queryText query).head?, (b = 0x2F ∨ b = 0x3F) ∧ b ≠ 0x2F := by
    cases query with
    | nil => exact fun b hb => absurd hb (Option.not_mem_none b)
    | cons segment segments =>
      rintro b hb
      cases hb
      exact ⟨.inr rfl, by decide⟩
  have hstop {query : List (List Byte)} (hquery : ∀ segment ∈ query, 0x26 ∉ segment) :
      ∀ segment ∈ query, ∀ b ∈ segment, ¬ b = 0x26 :=
    fun segment hsegment b hb hamp => hquery segment hsegment (hamp ▸ hb)
  obtain ⟨hhost, htext⟩ :=
    append_inj_of_stop h.host h'.host (hslash h.root) (hslash h'.root) htext
  obtain ⟨hpath, htext⟩ := joined_append_inj (fun b => b = 0x2F ∨ b = 0x3F) (.inl rfl) h.path h'.path hmark hmark htext
  have hquery := queryText_injective (hstop h.query) (hstop h'.query) htext
  exact Resource.ext hhost (h.port.trans h'.port.symm) hpath hquery

theorem SameSpelling.trans {r'' : Resource} (h : SameSpelling r r') (h' : SameSpelling r' r'') :
    SameSpelling r r'' := Relation.EqvGen.trans _ _ _ h h'

theorem Respelled.same (h : Respelled r r') : SameSpelling r r' := .rel _ _ h

/-- Splits of the path are respellings. -/
theorem sameSpelling_of_path {port : UInt16} {path' : List (List Byte)}
    (h : Relation.ReflTransGen (Split 0x2F) path path')
    (hnul : Resource.NulFree ⟨host, port, path, query⟩) :
    SameSpelling ⟨host, port, path, query⟩ ⟨host, port, path', query⟩ ∧
      Resource.NulFree ⟨host, port, path', query⟩ := by
  induction h with
  | refl => exact ⟨.refl _, hnul⟩
  | tail _ hsplit ih =>
    have hstep := Respelled.slash hsplit ih.2
    exact ⟨ih.1.trans hstep.same, hstep.nulFree ih.2⟩

/-- Splits of the query are respellings. -/
theorem sameSpelling_of_query {port : UInt16} (h : Relation.ReflTransGen (Split 0x26) query query')
    (hnul : Resource.NulFree ⟨host, port, path, query⟩) :
    SameSpelling ⟨host, port, path, query⟩ ⟨host, port, path, query'⟩ ∧
      Resource.NulFree ⟨host, port, path, query'⟩ := by
  induction h with
  | refl => exact ⟨.refl _, hnul⟩
  | tail _ hsplit ih =>
    have hstep := Respelled.ampersand hsplit ih.2
    exact ⟨ih.1.trans hstep.same, hstep.nulFree ih.2⟩

/-- The port, the NULs and a missing path. -/
theorem exists_plain (r : Resource) : ∃ host path query,
    SameSpelling r ⟨host, 0, path, query⟩ ∧ Resource.NulFree ⟨host, 0, path, query⟩ ∧
      path ≠ [] := by
  have hport : SameSpelling r { r with port := 0 } := (Respelled.port r 0).same
  have hcut := hport.trans (Respelled.nul { r with port := 0 }).same
  have hnul := { r with port := 0 : Resource }.upToNul_nulFree
  by_cases hpath : segmentsUpToNul r.path = []
  · have hroot := Respelled.root (r.host.takeWhile (· ≠ 0)) 0 (segmentsUpToNul r.query)
    rw [← hpath] at hroot
    exact ⟨_, _, _, hcut.trans hroot.same, hroot.nulFree hnul, List.cons_ne_nil _ _⟩
  · exact ⟨_, _, _, hcut, hnul, hpath⟩

/-- A host without slashes. -/
theorem exists_host (hnul : Resource.NulFree ⟨host, 0, path, query⟩) (hpath : path ≠ []) :
    ∃ host' path',
    SameSpelling ⟨host, 0, path, query⟩ ⟨host', 0, path', query⟩ ∧
      Resource.NulFree ⟨host', 0, path', query⟩ ∧ path' ≠ [] ∧ ∀ b ∈ host', b ≠ 0x2F := by
  by_cases hslash : 0x2F ∈ host
  · obtain ⟨before, after, rfl, hbefore⟩ := List.eq_append_cons_of_mem hslash
    have hstep := Respelled.host hpath hnul
    exact ⟨before, after :: path, hstep.same, hstep.nulFree hnul, List.cons_ne_nil _ _,
      fun b hb h => hbefore (h ▸ hb)⟩
  · exact ⟨host, path, .refl _, hnul, hpath, fun b hb h => hslash (h ▸ hb)⟩

/-- A path without question marks. -/
theorem exists_path (hnul : Resource.NulFree ⟨host, 0, path, query⟩) (hpath : path ≠ []) :
    ∃ path' query',
    SameSpelling ⟨host, 0, path, query⟩ ⟨host, 0, path', query'⟩ ∧
      Resource.NulFree ⟨host, 0, path', query'⟩ ∧ path' ≠ [] ∧
        ∀ segment ∈ path', 0x3F ∉ segment := by
  cases hmark : path.find? fun segment => decide (0x3F ∈ segment) with
  | none =>
    rw [List.find?_eq_none] at hmark
    exact ⟨path, query, .refl _, hnul, hpath, fun segment h => by simpa using hmark segment h⟩
  | some segment =>
    -- The query starts at the first mark of the first segment that has one.
    obtain ⟨hsegment, before, after, rfl, hbefore⟩ := List.find?_eq_some_iff_append.mp hmark
    obtain ⟨text, rest, rfl, htext⟩ := List.eq_append_cons_of_mem (of_decide_eq_true hsegment)
    have hstep := Respelled.question hnul
    exact ⟨before ++ [text], _, hstep.same, hstep.nulFree hnul,
      List.append_ne_nil_of_right_ne_nil _ (List.cons_ne_nil _ _),
      List.forall_mem_append.mpr ⟨fun segment h => by simpa using hbefore segment h,
        List.forall_mem_singleton.mpr htext⟩⟩

/-- **Every resource has a canonical spelling.** -/
theorem exists_canonical (r : Resource) : ∃ c, Canonical c ∧ SameSpelling r c := by
  obtain ⟨host, path, query, hplain, hnul, hpath⟩ := exists_plain r
  obtain ⟨host, path, hsame, hnul, hpath, hhost⟩ := exists_host hnul hpath
  have hplain := hplain.trans hsame
  obtain ⟨path, query, hsame, hnul, hpath, hmark⟩ := exists_path hnul hpath
  have hplain := hplain.trans hsame
  obtain ⟨path', hsplit, hslash⟩ := exists_splitFree 0x2F path
  obtain ⟨hsame, hnul⟩ := sameSpelling_of_path hsplit hnul
  obtain ⟨query', hsplit', hamp⟩ := exists_splitFree 0x26 query
  obtain ⟨hsame', hnul⟩ := sameSpelling_of_query hsplit' hnul
  refine ⟨⟨host, 0, path', query'⟩, ⟨rfl, hhost, splits_ne_nil hsplit hpath, ?_, hamp, hnul⟩,
    (hplain.trans hsame).trans hsame'⟩
  rintro segment hsegment b hb (rfl | rfl)
  · exact hslash segment hsegment hb
  · exact splits_not_mem hsplit hmark segment hsegment hb

/-- **Two resources have one text exactly when they are two spellings of one.** -/
theorem resourceText_eq_iff :
    resourceText r = resourceText r' ↔ SameSpelling r r' := by
  have hkeeps {r r' : Resource} (h : SameSpelling r r') : resourceText r = resourceText r' := by
    induction h with
    | rel _ _ h => exact h.resourceText_eq
    | refl _ => rfl
    | symm _ _ _ ih => exact ih.symm
    | trans _ _ _ _ _ ih ih' => exact ih.trans ih'
  refine ⟨fun htext => ?_, hkeeps⟩
  obtain ⟨c, hc, hsame⟩ := exists_canonical r
  obtain ⟨c', hc', hsame'⟩ := exists_canonical r'
  have hone : c = c' :=
    hc.eq_of_resourceText_eq hc' ((hkeeps hsame).symm.trans (htext.trans (hkeeps hsame')))
  subst hone
  exact hsame.trans (.symm _ _ hsame')

/-- **Which transfers are kept apart.** -/
theorem separatesTransfers_iff (p q : Packet) : SeparatesTransfers p q ↔
    (SameSpelling (requestResource p) (requestResource q) →
      requestResource p = requestResource q) := by
  rw [← resourceText_eq_iff, ← coapGetPacketUriAsString_eq, ← coapGetPacketUriAsString_eq]
  constructor
  · intro hseparates htext
    by_contra hne
    exact (hseparates hne).1 htext
  · intro hspelling hne
    have htext := mt hspelling hne
    refine ⟨htext, fun blockBuffer blockNum => ?_⟩
    exact congrArg Except.ok (beq_eq_false_iff_ne.mpr htext)

/-- A PUT with a path and no other option. -/
def putOfPath (mid : UInt16) (uriPath : List (List Byte)) : Packet :=
  { version := 1
    type := .con
    code := 3
    mid
    options := 0x800
    uriPath }

/-- **The path `/5/0` and the one segment `5/0` are under one key.** -/
theorem slashInSegment_not_separated :
    parseReceived [0x40, 0x03, 0x00, 0x01, 0xB1, 0x35, 0x01, 0x30] =
      .ok (noError, putOfPath 1 [[0x35], [0x30]]) ∧
    parseReceived [0x40, 0x03, 0x00, 0x02, 0xB3, 0x35, 0x2F, 0x30] =
      .ok (noError, putOfPath 2 [[0x35, 0x2F, 0x30]]) ∧
    ¬ SeparatesTransfers (putOfPath 1 [[0x35], [0x30]]) (putOfPath 2 [[0x35, 0x2F, 0x30]]) := by
  refine ⟨by decide +kernel, by decide +kernel, fun hseparates => ?_⟩
  exact (hseparates (by decide)).1 (by decide)

end Lwm2m.Core
