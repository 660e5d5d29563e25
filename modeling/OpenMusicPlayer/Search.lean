import OpenMusicPlayer.Client
import OpenMusicPlayer.Percent
import OpenMusicPlayer.Uuid

/-!
# Search and lookup URLs

The three searches build one URL shape and differ only in the entity path.
Its query component splits on `&` into exactly `query`, `limit`, `offset` and
`fmt`, in that order, whatever the query text; the query value decodes back
to the text's UTF-8, the limit is capped at 100, and the component holds no
character that could end it (`search_query_params`). A lookup puts the
identifier in the path, before a fixed query.
-/

namespace OpenMusicPlayer

/-- What the client's operations read of it; the `reqwest::Client` and the
rate limiter are the transport and the gate. -/
structure MusicBrainzClient where
  baseUrl : String

def defaultBaseUrl : String := "https://musicbrainz.org/ws/2"

def MusicBrainzClient.new : MusicBrainzClient := ⟨defaultBaseUrl⟩

def MusicBrainzClient.withBaseUrl (baseUrl : String) : MusicBrainzClient := ⟨baseUrl⟩

/-! ## Searches -/

/-- The URL of `format!("{}/<entity>?query={}&limit={}&offset={}&fmt=json", ..)`. -/
def searchUrl (entity : String) (client : MusicBrainzClient) (query : String)
    (limit offset : Option UInt32) : String :=
  let limit := min (limit.getD 25).toNat 100
  let offset := (offset.getD 0).toNat
  client.baseUrl ++ "/" ++ entity ++ "?query=" ++ encode query ++ "&limit=" ++ toString limit ++
    "&offset=" ++ toString offset ++ "&fmt=json"

variable {ε T : Type} [ToString ε]

def search (entity : String) (client : MusicBrainzClient) (c : Codec ε T) (query : String)
    (limit offset : Option UInt32) (outs : Nat → Except ε (Response ε)) : Run ε T :=
  get c (searchUrl entity client query limit offset) outs

def searchRecordings (client : MusicBrainzClient) (c : Codec ε T) (query : String)
    (limit offset : Option UInt32) (outs : Nat → Except ε (Response ε)) : Run ε T :=
  search "recording" client c query limit offset outs

def searchArtists (client : MusicBrainzClient) (c : Codec ε T) (query : String)
    (limit offset : Option UInt32) (outs : Nat → Except ε (Response ε)) : Run ε T :=
  search "artist" client c query limit offset outs

def searchReleases (client : MusicBrainzClient) (c : Codec ε T) (query : String)
    (limit offset : Option UInt32) (outs : Nat → Except ε (Response ε)) : Run ε T :=
  search "release" client c query limit offset outs

/-! ## Query components -/

/-- The parameters of a query component: its `&`-separated pieces, each split
at `=` into a key and a value; `none` unless every piece has exactly one `=`. -/
def queryParams (comp : String) : Option (List (String × String)) :=
  (comp.data.splitOn '&').mapM fun p =>
    match p.splitOn '=' with
    | [k, v] => some (⟨k⟩, ⟨v⟩)
    | _ => none

theorem toDigitsCore_isDigit (fuel n : Nat) (ds : List Char) (h : ∀ ch ∈ ds, ch.isDigit) :
    ∀ ch ∈ Nat.toDigitsCore 10 fuel n ds, ch.isDigit := by
  induction fuel generalizing n ds with
  | zero => exact h
  | succ fuel ih =>
    have hd : (Nat.digitChar (n % 10)).isDigit :=
      (show ∀ d < 10, (Nat.digitChar d).isDigit = true by decide) _ (Nat.mod_lt _ (by omega))
    have hds : ∀ ch ∈ Nat.digitChar (n % 10) :: ds, ch.isDigit := by
      simpa [List.mem_cons, forall_eq_or_imp] using ⟨hd, h⟩
    show ∀ ch ∈ (if n / 10 = 0 then Nat.digitChar (n % 10) :: ds
      else Nat.toDigitsCore 10 fuel (n / 10) (Nat.digitChar (n % 10) :: ds)), ch.isDigit
    split
    · exact hds
    · exact ih _ _ hds

theorem repr_encodedChar (n : Nat) : ∀ ch ∈ (toString n).data, isEncodedChar ch = true := by
  intro ch hch
  have := toDigitsCore_isDigit (n + 1) n [] (by simp) ch hch
  simp [isEncodedChar, Char.isAlphanum, this]

def isQueryChar (c : Char) : Bool := isEncodedChar c || c == '&' || c == '='

example : isQueryChar '#' = false ∧ isQueryChar '?' = false ∧ isQueryChar '+' = false := by decide

def param (k v : String) : List Char := k.data ++ '=' :: v.data

section Param

variable {k v : String} (hk : ∀ ch ∈ k.data, isEncodedChar ch = true)
  (hv : ∀ ch ∈ v.data, isEncodedChar ch = true)
include hk hv

theorem param_splitOn : (param k v).splitOn '=' = [k.data, v.data] := by
  have := List.splitOn_intercalate [k.data, v.data] '='
    (by simpa using ⟨fun h => (isEncodedChar_ne (hk _ h)).2 rfl, fun h => (isEncodedChar_ne (hv _ h)).2 rfl⟩)
    (by simp)
  simpa [param, List.intercalate] using this

theorem param_no_amp : '&' ∉ param k v := by
  simp only [param, List.mem_append, List.mem_cons, not_or]
  exact ⟨fun h => (isEncodedChar_ne (hk _ h)).1 rfl, by decide, fun h => (isEncodedChar_ne (hv _ h)).1 rfl⟩

theorem param_queryChar : ∀ ch ∈ param k v, isQueryChar ch = true := by
  simp only [param, List.mem_append, List.mem_cons]
  rintro ch (h | rfl | h)
  · simp [isQueryChar, hk ch h]
  · rfl
  · simp [isQueryChar, hv ch h]

end Param

def searchQuery (query : String) (limit offset : Nat) : List (List Char) :=
  [param "query" (encode query), param "limit" (toString limit), param "offset" (toString offset),
    param "fmt" "json"]

theorem searchUrl_eq (entity : String) (client : MusicBrainzClient) (query : String)
    (limit offset : Option UInt32) :
    searchUrl entity client query limit offset = client.baseUrl ++ "/" ++ entity ++ "?" ++
      ⟨['&'].intercalate (searchQuery query (min (limit.getD 25).toNat 100) (offset.getD 0).toNat)⟩ := by
  apply String.ext
  simp [searchUrl, searchQuery, param, List.intercalate]

theorem queryParams_searchQuery (query : String) (limit offset : Nat) :
    queryParams ⟨['&'].intercalate (searchQuery query limit offset)⟩ =
      some [("query", encode query), ("limit", toString limit), ("offset", toString offset),
        ("fmt", "json")] := by
  have hq := encode_encodedChar query
  have hl := repr_encodedChar limit
  have ho := repr_encodedChar offset
  have hsplit : (['&'].intercalate (searchQuery query limit offset)).splitOn '&' =
      searchQuery query limit offset := by
    refine List.splitOn_intercalate _ _ ?_ (by simp [searchQuery])
    simp only [searchQuery, List.mem_cons, List.not_mem_nil, or_false]
    rintro l (rfl | rfl | rfl | rfl)
    · exact param_no_amp (by decide) hq
    · exact param_no_amp (by decide) hl
    · exact param_no_amp (by decide) ho
    · exact param_no_amp (by decide) (by decide)
  rw [queryParams, hsplit]
  simp only [searchQuery, List.mapM_cons, List.mapM_nil, param_splitOn (k := "query") (by decide) hq,
    param_splitOn (k := "limit") (by decide) hl, param_splitOn (k := "offset") (by decide) ho,
    param_splitOn (k := "fmt") (v := "json") (by decide) (by decide)]
  rfl

theorem searchQuery_queryChar (query : String) (limit offset : Nat) :
    ∀ ch ∈ ['&'].intercalate (searchQuery query limit offset), isQueryChar ch = true := by
  have hq := param_queryChar (k := "query") (by decide) (encode_encodedChar query)
  have hl := param_queryChar (k := "limit") (by decide) (repr_encodedChar limit)
  have ho := param_queryChar (k := "offset") (by decide) (repr_encodedChar offset)
  have hf := param_queryChar (k := "fmt") (v := "json") (by decide) (by decide)
  simp only [searchQuery, List.intercalate, List.intersperse_cons₂, List.intersperse_single,
    List.flatten_cons, List.flatten_nil, List.mem_append, List.mem_singleton, List.not_mem_nil,
    or_false]
  rintro ch (h | rfl | h | rfl | h | rfl | h)
  exacts [hq ch h, rfl, hl ch h, rfl, ho ch h, rfl, hf ch h]

/-! ## What a search sends -/

/-- The URL `f` hands to `get` is the base, `/`, the entity path and `?`, then
a component whose parameters are `query`, `limit`, `offset` and `fmt=json` in
that order; the query value percent-decodes to the text's UTF-8, the limit is
the decimal of the requested limit (25 by default) capped at 100, and the
offset that of the requested offset (0 by default). Every character of the
component is an ASCII letter or digit, `-._~`, `%`, `&` or `=`, so no `#` can
end it early. -/
def SearchSends (f : (Nat → Except ε (Response ε)) → Run ε T) (c : Codec ε T) (entity : String)
    (client : MusicBrainzClient) (query : String) (limit offset : Option UInt32) : Prop :=
  ∃ comp v : String,
    (∀ outs, f outs = get c (client.baseUrl ++ "/" ++ entity ++ "?" ++ comp) outs) ∧
    queryParams comp = some [("query", v), ("limit", Nat.repr (min (limit.getD 25).toNat 100)),
      ("offset", Nat.repr (offset.getD 0).toNat), ("fmt", "json")] ∧
    percentDecode v.data = query.toUTF8.data.toList ∧
    ∀ ch ∈ comp.data, isQueryChar ch = true

theorem search_sends (entity : String) (client : MusicBrainzClient) (c : Codec ε T) (query : String)
    (limit offset : Option UInt32) :
    SearchSends (search entity client c query limit offset) c entity client query limit offset :=
  ⟨_, encode query, fun outs => by rw [search, searchUrl_eq], queryParams_searchQuery _ _ _,
    percentDecode_encode query, searchQuery_queryChar _ _ _⟩

/-- **Search URLs.** No query text adds, drops, reorders or overrides a
parameter of any of the three searches. -/
theorem search_query_params (client : MusicBrainzClient) (c : Codec ε T) (query : String)
    (limit offset : Option UInt32) :
    SearchSends (searchRecordings client c query limit offset) c "recording" client query limit offset ∧
    SearchSends (searchArtists client c query limit offset) c "artist" client query limit offset ∧
    SearchSends (searchReleases client c query limit offset) c "release" client query limit offset :=
  ⟨search_sends _ _ _ _ _ _, search_sends _ _ _ _ _ _, search_sends _ _ _ _ _ _⟩

/-! ## Lookups -/

def lookupUrl (entity incs : String) (client : MusicBrainzClient) (mbid : Uuid) : String :=
  client.baseUrl ++ "/" ++ entity ++ "/" ++ mbid.hyphenated ++ "?inc=" ++ incs ++ "&fmt=json"

def lookup (entity incs : String) (client : MusicBrainzClient) (c : Codec ε T) (mbid : Uuid)
    (outs : Nat → Except ε (Response ε)) : Run ε T :=
  get c (lookupUrl entity incs client mbid) outs

def lookupRecording (client : MusicBrainzClient) (c : Codec ε T) (mbid : Uuid)
    (outs : Nat → Except ε (Response ε)) : Run ε T :=
  lookup "recording" "artists+releases" client c mbid outs

def lookupArtist (client : MusicBrainzClient) (c : Codec ε T) (mbid : Uuid)
    (outs : Nat → Except ε (Response ε)) : Run ε T :=
  lookup "artist" "recordings+releases" client c mbid outs

def lookupRelease (client : MusicBrainzClient) (c : Codec ε T) (mbid : Uuid)
    (outs : Nat → Except ε (Response ε)) : Run ε T :=
  lookup "release" "artists" client c mbid outs

end OpenMusicPlayer
