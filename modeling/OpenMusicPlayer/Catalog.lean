import OpenMusicPlayer.RetrySound
import OpenMusicPlayer.SerdeMap

/-!
# The catalog models and what a request returns

The MusicBrainz models as the derive sees them: each struct's fields in
declaration order, under their wire names, with `#[serde(default)]` where the
source has it. `response.json::<T>()` is serde_json's parser followed by the
derived visitor of `T` (`catalogCodec`). Every model is well formed
(`catalogModels_wf`), so through the client's retry loop a body the derived
`Serialize` wrote for any of them is read back (`get_reads_serialized`).
-/

namespace OpenMusicPlayer

/-! ## The models -/

def artistRef : Shape := .struct
  [⟨"id", .uuid, false⟩, ⟨"name", .string, false⟩, ⟨"sort-name", .option .string, false⟩,
   ⟨"disambiguation", .option .string, false⟩]

def artistCredit : Shape := .struct
  [⟨"name", .string, false⟩, ⟨"artist", artistRef, false⟩, ⟨"joinphrase", .string, true⟩]

def lifeSpan : Shape := .struct
  [⟨"begin", .option .string, false⟩, ⟨"end", .option .string, false⟩, ⟨"ended", .option .bool, false⟩]

def recordingRef : Shape := .struct
  [⟨"id", .uuid, false⟩, ⟨"title", .string, false⟩, ⟨"length", .option .u64, false⟩,
   ⟨"disambiguation", .option .string, false⟩]

def releaseGroupRef : Shape := .struct
  [⟨"id", .uuid, false⟩, ⟨"title", .option .string, false⟩, ⟨"primary-type", .option .string, false⟩]

def releaseRef : Shape := .struct
  [⟨"id", .uuid, false⟩, ⟨"title", .string, false⟩, ⟨"status", .option .string, false⟩,
   ⟨"date", .option .string, false⟩, ⟨"country", .option .string, false⟩,
   ⟨"release-group", .option releaseGroupRef, false⟩]

def artist : Shape := .struct
  [⟨"id", .uuid, false⟩, ⟨"name", .string, false⟩, ⟨"sort-name", .option .string, false⟩,
   ⟨"type", .option .string, false⟩, ⟨"country", .option .string, false⟩,
   ⟨"disambiguation", .option .string, false⟩, ⟨"life-span", .option lifeSpan, false⟩,
   ⟨"recordings", .vec recordingRef, true⟩, ⟨"releases", .vec releaseRef, true⟩]

def recording : Shape := .struct
  [⟨"id", .uuid, false⟩, ⟨"title", .string, false⟩, ⟨"length", .option .u64, false⟩,
   ⟨"disambiguation", .option .string, false⟩, ⟨"first-release-date", .option .string, false⟩,
   ⟨"artist-credit", .vec artistCredit, true⟩, ⟨"releases", .vec releaseRef, true⟩]

def release : Shape := .struct
  [⟨"id", .uuid, false⟩, ⟨"title", .string, false⟩, ⟨"status", .option .string, false⟩,
   ⟨"date", .option .string, false⟩, ⟨"country", .option .string, false⟩,
   ⟨"artist-credit", .vec artistCredit, true⟩, ⟨"release-group", .option releaseGroupRef, false⟩]

def recordingSearchHit : Shape := .struct
  [⟨"id", .uuid, false⟩, ⟨"score", .u8, false⟩, ⟨"title", .string, false⟩,
   ⟨"length", .option .u64, false⟩, ⟨"first-release-date", .option .string, false⟩,
   ⟨"artist-credit", .vec artistCredit, true⟩, ⟨"releases", .vec releaseRef, true⟩]

def recordingSearchResult : Shape := .struct
  [⟨"created", .option .string, false⟩, ⟨"count", .u32, false⟩, ⟨"offset", .u32, false⟩,
   ⟨"recordings", .vec recordingSearchHit, false⟩]

def artistSearchHit : Shape := .struct
  [⟨"id", .uuid, false⟩, ⟨"score", .u8, false⟩, ⟨"name", .string, false⟩,
   ⟨"sort-name", .option .string, false⟩, ⟨"type", .option .string, false⟩,
   ⟨"country", .option .string, false⟩, ⟨"disambiguation", .option .string, false⟩,
   ⟨"life-span", .option lifeSpan, false⟩]

def artistSearchResult : Shape := .struct
  [⟨"created", .option .string, false⟩, ⟨"count", .u32, false⟩, ⟨"offset", .u32, false⟩,
   ⟨"artists", .vec artistSearchHit, false⟩]

def releaseSearchHit : Shape := .struct
  [⟨"id", .uuid, false⟩, ⟨"score", .u8, false⟩, ⟨"title", .string, false⟩,
   ⟨"status", .option .string, false⟩, ⟨"date", .option .string, false⟩,
   ⟨"country", .option .string, false⟩, ⟨"artist-credit", .vec artistCredit, true⟩,
   ⟨"release-group", .option releaseGroupRef, false⟩]

def releaseSearchResult : Shape := .struct
  [⟨"created", .option .string, false⟩, ⟨"count", .u32, false⟩, ⟨"offset", .u32, false⟩,
   ⟨"releases", .vec releaseSearchHit, false⟩]

/-- The models the client's operations return. -/
def catalogModels : List Shape :=
  [recordingSearchResult, artistSearchResult, releaseSearchResult, recording, artist, release]

/-- Every model has distinct wire names and no `Option` of an `Option`. -/
theorem catalogModels_wf : ∀ s ∈ catalogModels, s.wf = true := by decide

/-! ## Decoding a body -/

section
variable {ε : Type} (parse : List UInt8 → Except ε Json) (wrap : DeError → ε) (text : List UInt8 → String)

/-- `serde_json::from_slice` into a model of shape `s`: `parse` reads the
text, the derived visitor reads the value, and `wrap` makes its error the
`reqwest::Error` the caller sees. -/
def catalogCodec (s : Shape) : Codec ε Val where
  decode bytes := parse bytes >>= fun j => (deserialize s j).mapError wrap
  text := text

end

/-! ## What a request returns -/

theorem isSuccess_not_busy {ε : Type} {r : Response ε} (hs : isSuccess r.status = true) : busy (.ok r) = false := by
  have : r.status ≠ 503 := fun h => by rw [h] at hs; exact absurd hs (by decide)
  simpa [busy] using this

section
variable {ε : Type} [ToString ε] {parse : List UInt8 → Except ε Json} {wrap : DeError → ε}
  {text : List UInt8 → String} {s : Shape} {url : String} {outs : Nat → Except ε (Response ε)} {m : Nat}
  {r : Response ε} {bytes : List UInt8} {v : Val}

theorem get_reads_wf (hm : m ≤ maxRetries) (hbusy : ∀ i < m, busy (outs i) = true) (hout : outs m = .ok r)
    (hs : isSuccess r.status = true) (hbody : r.body = .ok bytes) (hparse : parse bytes = .ok (serialize s v))
    (hwf : s.wf = true) (hv : s.fits v = true) :
    (get (catalogCodec parse wrap text s) url outs).result = .ok v := by
  have hdecode : (catalogCodec parse wrap text s).decode bytes = .ok v := by
    show (parse bytes >>= fun j => (deserialize s j).mapError wrap) = _
    rw [hparse]
    show (deserialize s (serialize s v)).mapError wrap = _
    rw [deserialize_serialize s hwf hv]
    rfl
  rw [get_of_first_idle hm hbusy (hout ▸ isSuccess_not_busy hs), hout]
  simp only [classify, (isSuccess_iff _).mp hs, and_self, if_true, hbody, hdecode]

/-- **What the server writes is read back.** When the first response that is
not a 503 is a 2xx whose body parses to what the derived `Serialize` writes
for a value `v` of one of the client's models, the request returns `v`. -/
theorem get_reads_serialized (hm : m ≤ maxRetries) (hbusy : ∀ i < m, busy (outs i) = true)
    (hout : outs m = .ok r) (hs : isSuccess r.status = true) (hbody : r.body = .ok bytes)
    (hparse : parse bytes = .ok (serialize s v)) (hmodel : s ∈ catalogModels) (hv : s.fits v = true) :
    (get (catalogCodec parse wrap text s) url outs).result = .ok v :=
  get_reads_wf hm hbusy hout hs hbody hparse (catalogModels_wf s hmodel) hv

theorem get_reads_serialized_emptySearch :
    (get (catalogCodec (fun _ => .ok (serialize recordingSearchResult (.struct [.none, .nat 0, .nat 0, .list []])))
        (fun _ => "") (fun _ => "") recordingSearchResult) "u"
        fun _ => (.ok ⟨200, .ok []⟩ : Except String (Response String))).result =
      .ok (.struct [.none, .nat 0, .nat 0, .list []]) :=
  get_reads_serialized (m := 0) (by decide) (fun _ h => absurd h (Nat.not_lt_zero _)) rfl (by decide) rfl rfl
    (List.mem_cons_self _ _) (by decide)

end

end OpenMusicPlayer
