import Mathlib.Data.Nat.Find
import NestStarter.Storage.Upload

/-! # Image compression

`SharpImageProcessor`. The encoder is a parameter: what it makes of a buffer at a quality is
arbitrary, and it may refuse. The qualities it is called with are kept beside the result.
-/

namespace NestStarter.Storage

structure Dimensions where
  width : Nat
  height : Nat
  deriving DecidableEq, Repr

/-- What `SharpImageProcessor` uses of `sharp`; a call that throws leaves its message. `fitted`
is the floating-point side of `optimalDimensions`, from a side, the target and the length. -/
structure Sharp where
  metadata : Buffer → Except String (Option Nat × Option Nat)
  fitted : Nat → Nat → Nat → Nat
  encode : Buffer → Dimensions → String → Int → Except String Buffer

/-- An image: `sharp` reads its size, and encodes it at the qualities it takes. -/
structure Sharp.Reads (sharp : Sharp) (buffer : Buffer) : Prop where
  metadata : ∃ sides, sharp.metadata buffer = .ok sides
  encode : ∀ dimensions format (quality : Int), 1 ≤ quality → quality ≤ 100 →
    ∃ out, sharp.encode buffer dimensions format quality = .ok out

def StorageError.message : StorageError → String
  | .storage message => message
  | .fileValidation message _ _ => message
  | .fileNotFound key => "File not found in storage: " ++ key
  | .storageProvider message => message
  | .typeError message => message
  | .client message => message

def supported : List String :=
  ["jpeg", "jpg", "png", "webp", "gif", "tiff", "tif", "avif", "heif"]

/-- The `while` of `compress`: its result, and the qualities it calls the encoder with. -/
def compressLoop (encode : Int → Except String Buffer) (targetBytes : Nat) (minQuality : Int)
    (quality : Int) (currentBuffer : Buffer) : Except String Buffer × List Int :=
  if targetBytes < currentBuffer.length ∧ minQuality < quality then
    let quality' := quality - 5
    match encode quality' with
    | .error message => (.error message, [quality'])
    | .ok next =>
        let r := compressLoop encode targetBytes minQuality quality' next
        (r.1, quality' :: r.2)
  else (.ok currentBuffer, [])
termination_by (quality - minQuality).toNat
decreasing_by omega

section Processor

variable (sharp : Sharp)

def SharpImageProcessor.optimalDimensions (buffer : Buffer) (targetBytes : Nat) :
    Except String Dimensions :=
  (sharp.metadata buffer).map fun sides =>
    ⟨sharp.fitted (sides.1.getD 0) targetBytes buffer.length,
      sharp.fitted (sides.2.getD 0) targetBytes buffer.length⟩

/-- `compress`: the buffer and its format, and the qualities the encoder is called with. -/
def SharpImageProcessor.compress (buffer : Buffer) (policy : CompressionPolicy) :
    Except String (Buffer × String) × List Int :=
  match parseSize policy.maxOutputSize with
  | .error e => (.error e.message, [])
  | .ok targetBytes =>
      match optimalDimensions sharp buffer targetBytes with
      | .error message => (.error message, [])
      | .ok dimensions =>
          let encode := sharp.encode buffer dimensions policy.outputFormat
          let quality : Int := policy.quality
          match encode quality with
          | .error message => (.error message, [quality])
          | .ok currentBuffer =>
              let r := compressLoop encode targetBytes policy.minQuality quality currentBuffer
              (r.1.map fun out => (out, policy.outputFormat), quality :: r.2)

def SharpImageProcessor.process (toLowerCase : String → String) (input : UploadInput)
    (policy : CompressionPolicy) : Except StorageError UploadInput :=
  if !policy.enabled then .ok input
  else if extractExtension toLowerCase input.originalName ∉ supported then .ok input
  else
    match (compress sharp input.buffer policy).1 with
    | .error message => .error (.storageProvider ("Image compression failed: " ++ message))
    | .ok (buffer, format) =>
        let newName := String.ofList (extractBaseName input.originalName.toList) ++ "." ++ format
        .ok ⟨buffer, newName, "image/" ++ format, buffer.length⟩

end Processor

section Loop

variable {encode : Int → Except String Buffer} {targetBytes : Nat} {minQuality : Int}

theorem compressLoop_of_fits {current : Buffer} (quality : Int)
    (h : current.length ≤ targetBytes) :
    compressLoop encode targetBytes minQuality quality current = (.ok current, []) := by
  rw [compressLoop, if_neg (by omega)]

theorem compressLoop_of_le {quality : Int} (current : Buffer) (h : quality ≤ minQuality) :
    compressLoop encode targetBytes minQuality quality current = (.ok current, []) := by
  rw [compressLoop, if_neg (by omega)]

theorem compressLoop_step {quality : Int} {current : Buffer} (hbig : targetBytes < current.length)
    (hlow : minQuality < quality) :
    quality - 5 ∈ (compressLoop encode targetBytes minQuality quality current).2 := by
  rw [compressLoop, if_pos ⟨hbig, hlow⟩]
  cases hnext : encode (quality - 5) with
  | error message => simp [hnext]
  | ok next => simp [hnext]

theorem compressLoop_skip {quality : Int} {image : Nat → Buffer} {n : Nat}
    (hencode : ∀ i ≤ n, encode (quality - 5 * i) = .ok (image i))
    (hbig : ∀ i < n, targetBytes < (image i).length)
    (hlow : ∀ i < n, minQuality < quality - 5 * i) :
    compressLoop encode targetBytes minQuality quality (image 0) =
      ((compressLoop encode targetBytes minQuality (quality - 5 * n) (image n)).1,
        (List.range n).map (fun i : Nat => quality - 5 * (i + 1)) ++
          (compressLoop encode targetBytes minQuality (quality - 5 * n) (image n)).2) := by
  induction n with
  | zero => simp
  | succ n ih =>
      have hstep : compressLoop encode targetBytes minQuality (quality - 5 * n) (image n) =
          ((compressLoop encode targetBytes minQuality (quality - 5 * (n + 1)) (image (n + 1))).1,
            (quality - 5 * (n + 1)) ::
              (compressLoop encode targetBytes minQuality (quality - 5 * (n + 1))
                (image (n + 1))).2) := by
        have hnext : quality - 5 * n - 5 = quality - 5 * (n + 1) := by omega
        have himage := hencode (n + 1) (Nat.le_refl _)
        rw [compressLoop, if_pos ⟨hbig n (by omega), hlow n (by omega)⟩]
        simp only [hnext]
        rw [show ((n + 1 : Nat) : Int) = n + 1 by omega] at himage
        rw [himage]
      rw [ih (fun i hi => hencode i (by omega)) (fun i hi => hbig i (by omega))
        (fun i hi => hlow i (by omega)), hstep, List.range_succ, List.map_append]
      simp

end Loop

/-! ## The qualities of a policy -/

def CompressionPolicy.stepQuality (policy : CompressionPolicy) (i : Nat) : Int :=
  policy.quality - 5 * i

/-- The policy permits `i` steps down. -/
def CompressionPolicy.Permits (policy : CompressionPolicy) (i : Nat) : Prop :=
  policy.minQuality ≤ policy.stepQuality i

def FitsAt (encode : Int → Except String Buffer) (targetBytes : Nat) (policy : CompressionPolicy)
    (i : Nat) : Prop :=
  ∃ out, encode (policy.stepQuality i) = .ok out ∧ out.length ≤ targetBytes

/-- Where the search for an encoding is to end: at the first step that fits, or at the last one
permitted when none does. -/
def EndsAt (encode : Int → Except String Buffer) (targetBytes : Nat) (policy : CompressionPolicy)
    (i : Nat) : Prop :=
  policy.Permits i ∧ (∀ j < i, ¬ FitsAt encode targetBytes policy j) ∧
    (FitsAt encode targetBytes policy i ∨ ¬ policy.Permits (i + 1))

/-- What `compress` is to do: keep the encoder within the qualities of the policy, and return the
encoding where the search ends. -/
structure Searches (encode : Int → Except String Buffer) (targetBytes : Nat)
    (policy : CompressionPolicy) (r : Except String (Buffer × String) × List Int) : Prop where
  bounded : ∀ quality ∈ r.2, policy.minQuality ≤ quality ∧ quality ≤ policy.quality
  found : ∃ i out, EndsAt encode targetBytes policy i ∧
    encode (policy.stepQuality i) = .ok out ∧ r.1 = .ok (out, policy.outputFormat)

/-- What `compress` is to do with a buffer, its target and dimensions computed. -/
def SharpImageProcessor.Compresses (sharp : Sharp) (buffer : Buffer) (policy : CompressionPolicy) :
    Prop :=
  ∃ targetBytes dimensions, parseSize policy.maxOutputSize = .ok targetBytes ∧
    optimalDimensions sharp buffer targetBytes = .ok dimensions ∧
    Searches (sharp.encode buffer dimensions policy.outputFormat) targetBytes policy
      (compress sharp buffer policy)

/-- The search stays within the policy: some permitted step fits, or the steps of five meet the
lowest quality. -/
def StaysWithin (encode : Int → Except String Buffer) (targetBytes : Nat)
    (policy : CompressionPolicy) : Prop :=
  5 ∣ policy.quality - policy.minQuality ∨
    ∃ i, policy.Permits i ∧ FitsAt encode targetBytes policy i

/-- Exactly when `compress` does it: the size literal parses, and the search stays within. -/
def SharpImageProcessor.Safe (sharp : Sharp) (buffer : Buffer) (policy : CompressionPolicy) :
    Prop :=
  ∃ targetBytes dimensions, parseSize policy.maxOutputSize = .ok targetBytes ∧
    optimalDimensions sharp buffer targetBytes = .ok dimensions ∧
    StaysWithin (sharp.encode buffer dimensions policy.outputFormat) targetBytes policy

section Search

variable {encode : Int → Except String Buffer} {targetBytes : Nat} {policy : CompressionPolicy}

theorem permits_of_le {i j : Nat} (h : policy.Permits j) (hij : i ≤ j) : policy.Permits i := by
  unfold CompressionPolicy.Permits CompressionPolicy.stepQuality at *
  omega

theorem exists_endsAt (hmin : policy.minQuality ≤ policy.quality) :
    ∃ i, EndsAt encode targetBytes policy i := by
  classical
  have hstop : ∃ i, FitsAt encode targetBytes policy i ∨ ¬ policy.Permits (i + 1) := by
    refine ⟨policy.quality, Or.inr ?_⟩
    unfold CompressionPolicy.Permits CompressionPolicy.stepQuality
    omega
  have hbefore : ∀ j < Nat.find hstop, ¬ FitsAt encode targetBytes policy j ∧
      policy.Permits (j + 1) := by
    intro j hj
    have hj := Nat.find_min hstop hj
    simpa using hj
  refine ⟨Nat.find hstop, ?_, fun j hj => (hbefore j hj).1, Nat.find_spec hstop⟩
  cases hi : Nat.find hstop with
  | zero =>
      unfold CompressionPolicy.Permits CompressionPolicy.stepQuality
      omega
  | succ i => exact (hbefore i (by omega)).2

/-- Where the search ends, staying within means that it fits there or is at the lowest quality. -/
theorem EndsAt.staysWithin_iff {i : Nat} (h : EndsAt encode targetBytes policy i)
    (hmin : policy.minQuality ≤ policy.quality) :
    StaysWithin encode targetBytes policy ↔
      FitsAt encode targetBytes policy i ∨ policy.stepQuality i = policy.minQuality := by
  obtain ⟨hpermits, hbefore, hend⟩ := h
  constructor
  · rintro (hdvd | ⟨j, hj, hfits⟩)
    · refine hend.imp_right fun hlast => ?_
      unfold CompressionPolicy.Permits CompressionPolicy.stepQuality at *
      omega
    · rcases hend with hfits' | hlast
      · exact Or.inl hfits'
      · have hij : i ≤ j := Nat.le_of_not_lt fun hji => hbefore j hji hfits
        have hji : j ≤ i := Nat.le_of_not_lt fun hij => hlast (permits_of_le hj hij)
        rw [Nat.le_antisymm hij hji]
        exact Or.inl hfits
  · rintro (hfits | hlowest)
    · exact Or.inr ⟨i, hpermits, hfits⟩
    · refine Or.inl ⟨i, ?_⟩
      unfold CompressionPolicy.stepQuality at hlowest
      omega

/-- What `compress` does with its encoder: everything before the end of the search, then the loop
from there. -/
theorem exists_image {i : Nat} (h : EndsAt encode targetBytes policy i)
    (hencode : ∀ j, policy.Permits j → ∃ out, encode (policy.stepQuality j) = .ok out) :
    ∃ image : Nat → Buffer, encode policy.quality = .ok (image 0) ∧
      encode (policy.stepQuality i) = .ok (image i) ∧
      (FitsAt encode targetBytes policy i ↔ (image i).length ≤ targetBytes) ∧
      compressLoop encode targetBytes policy.minQuality policy.quality (image 0) =
        ((compressLoop encode targetBytes policy.minQuality (policy.stepQuality i) (image i)).1,
          (List.range i).map (fun j => policy.stepQuality (j + 1)) ++
            (compressLoop encode targetBytes policy.minQuality (policy.stepQuality i)
              (image i)).2) := by
  obtain ⟨hpermits, hbefore, -⟩ := h
  have himage : ∀ j, ∃ out, policy.Permits j → encode (policy.stepQuality j) = .ok out := by
    intro j
    by_cases hj : policy.Permits j
    · obtain ⟨out, hout⟩ := hencode j hj
      exact ⟨out, fun _ => hout⟩
    · exact ⟨[], fun h => absurd h hj⟩
  choose image himage using himage
  have hok : ∀ j ≤ i, encode (policy.stepQuality j) = .ok (image j) := fun j hj =>
    himage j (permits_of_le hpermits hj)
  have hzero : policy.stepQuality 0 = policy.quality := by
    unfold CompressionPolicy.stepQuality
    omega
  have hfits : ∀ j ≤ i, FitsAt encode targetBytes policy j ↔ (image j).length ≤ targetBytes := by
    intro j hj
    simp [FitsAt, hok j hj]
  refine ⟨image, hzero ▸ hok 0 (Nat.zero_le _), hok i (Nat.le_refl _), hfits i (Nat.le_refl _), ?_⟩
  have hlow : ∀ j < i, (policy.minQuality : Int) < policy.quality - 5 * j := by
    intro j hj
    unfold CompressionPolicy.Permits CompressionPolicy.stepQuality at hpermits
    omega
  have hskip := compressLoop_skip hok (fun j hj =>
    Nat.lt_of_not_le (mt (hfits j (Nat.le_of_lt hj)).2 (hbefore j hj))) hlow
  rw [hskip]
  simp [CompressionPolicy.stepQuality]

/-- The loop from where the search ends: it stops there, or steps below the lowest quality. -/
theorem searches_iff {i : Nat} (h : EndsAt encode targetBytes policy i)
    (hmin : policy.minQuality ≤ policy.quality)
    (hencode : ∀ j, policy.Permits j → ∃ out, encode (policy.stepQuality j) = .ok out)
    {first : Buffer} (hfirst : encode policy.quality = .ok first)
    {r : Except String Buffer × List Int}
    (hr : r = compressLoop encode targetBytes policy.minQuality policy.quality first) :
    Searches encode targetBytes policy
        (r.1.map fun out => (out, policy.outputFormat), (policy.quality : Int) :: r.2) ↔
      StaysWithin encode targetBytes policy := by
  obtain ⟨image, hzero, hi, hfits, hloop⟩ := exists_image h hencode
  rw [h.staysWithin_iff hmin]
  rw [hzero, Except.ok.injEq] at hfirst
  subst hfirst
  rw [hloop] at hr
  subst hr
  have hpermits := h.1
  constructor
  · intro hsearch
    refine Classical.byContradiction fun hnot => ?_
    obtain ⟨hbig, hlowest⟩ := not_or.1 hnot
    have hlast := h.2.2.resolve_left hbig
    rw [hfits, Nat.not_le] at hbig
    have hlow : (policy.minQuality : Int) < policy.stepQuality i := by
      unfold CompressionPolicy.Permits at hpermits
      omega
    have hmem : policy.stepQuality i - 5 ∈ (compressLoop encode targetBytes policy.minQuality
        (policy.stepQuality i) (image i)).2 := compressLoop_step hbig hlow
    have hbound := (hsearch.bounded _ (List.mem_cons_of_mem _ (List.mem_append_right _ hmem))).1
    unfold CompressionPolicy.Permits CompressionPolicy.stepQuality at *
    omega
  · intro hstop
    have hend : compressLoop encode targetBytes policy.minQuality (policy.stepQuality i)
        (image i) = (.ok (image i), []) := by
      rcases hstop with hfit | hlowest
      · exact compressLoop_of_fits _ (hfits.1 hfit)
      · exact compressLoop_of_le _ (by omega)
    rw [hend]
    refine ⟨?_, i, image i, h, hi, rfl⟩
    intro quality hquality
    simp only [List.append_nil, List.mem_cons, List.mem_map, List.mem_range] at hquality
    unfold CompressionPolicy.Permits CompressionPolicy.stepQuality at *
    rcases hquality with rfl | ⟨j, hj, rfl⟩
    · omega
    · omega

end Search

/-! ## Compression -/

/-- What `compress` comes to with its target and dimensions. -/
theorem SharpImageProcessor.compress_eq {sharp : Sharp} {buffer : Buffer}
    {policy : CompressionPolicy} {targetBytes : Nat} {dimensions : Dimensions} {first : Buffer}
    (htarget : parseSize policy.maxOutputSize = .ok targetBytes)
    (hdimensions : optimalDimensions sharp buffer targetBytes = .ok dimensions)
    (hfirst : sharp.encode buffer dimensions policy.outputFormat policy.quality = .ok first) :
    compress sharp buffer policy =
      let r := compressLoop (sharp.encode buffer dimensions policy.outputFormat) targetBytes
        policy.minQuality policy.quality first
      (r.1.map fun out => (out, policy.outputFormat), (policy.quality : Int) :: r.2) := by
  simp [compress, htarget, hdimensions, hfirst]

/-- On an image, `compress` does what it is to do exactly when the size literal parses and the
search stays within the policy. -/
theorem SharpImageProcessor.compresses_iff (sharp : Sharp) (buffer : Buffer)
    (policy : CompressionPolicy) (hreads : sharp.Reads buffer) (hone : 1 ≤ policy.minQuality)
    (hmin : policy.minQuality ≤ policy.quality) (hmax : policy.quality ≤ 100) :
    Compresses sharp buffer policy ↔ Safe sharp buffer policy := by
  unfold Compresses Safe
  refine exists_congr fun targetBytes => exists_congr fun dimensions => and_congr_right
    fun htarget => and_congr_right fun hdimensions => ?_
  have hencode : ∀ j, policy.Permits j → ∃ out,
      sharp.encode buffer dimensions policy.outputFormat (policy.stepQuality j) = .ok out := by
    intro j hj
    unfold CompressionPolicy.Permits CompressionPolicy.stepQuality at *
    exact hreads.encode _ _ _ (by omega) (by omega)
  obtain ⟨first, hfirst⟩ := hreads.encode dimensions policy.outputFormat policy.quality (by omega)
    (by omega)
  obtain ⟨i, hi⟩ : ∃ i, EndsAt (sharp.encode buffer dimensions policy.outputFormat) targetBytes
    policy i := exists_endsAt hmin
  rw [compress_eq htarget hdimensions hfirst]
  exact searches_iff hi hmin hencode hfirst rfl

def defaultCompressionPolicy : CompressionPolicy := ⟨true, 80, 50, "150KB", "jpeg"⟩

/-- An encoder whose output has as many bytes as the quality. -/
def sharpSample : Sharp where
  metadata _ := .ok (some 640, some 480)
  fitted side _ _ := side
  encode _ _ _ quality :=
    if 1 ≤ quality ∧ quality ≤ 100 then .ok (List.replicate quality.toNat 0)
    else .error "Expected integer between 1 and 100 for quality"

theorem sharpSample_reads (buffer : Buffer) : sharpSample.Reads buffer :=
  ⟨⟨_, rfl⟩, fun _ _ _ hone hmax => ⟨_, if_pos ⟨hone, hmax⟩⟩⟩

theorem SharpImageProcessor.compresses_defaultCompressionPolicy :
    Compresses sharpSample [0] defaultCompressionPolicy :=
  (compresses_iff sharpSample [0] defaultCompressionPolicy (sharpSample_reads _) (by decide)
    (by decide) (by decide)).2 ⟨150 * 1024, ⟨640, 480⟩, by decide +kernel, rfl, Or.inl (by decide)⟩

/-- A lowest quality that the steps of five miss. -/
def unalignedPolicy : CompressionPolicy :=
  { defaultCompressionPolicy with minQuality := 52, maxOutputSize := "10B" }

/-- The encoder is called with a quality of 50, below the lowest of the policy. -/
theorem SharpImageProcessor.not_compresses_unalignedPolicy :
    ¬ ∀ (sharp : Sharp) (buffer : Buffer) (policy : CompressionPolicy), sharp.Reads buffer →
      1 ≤ policy.minQuality → policy.minQuality ≤ policy.quality → policy.quality ≤ 100 →
      Compresses sharp buffer policy := by
  intro h
  obtain ⟨targetBytes, dimensions, htarget, hdimensions, hsearch⟩ :=
    h sharpSample [0] unalignedPolicy (sharpSample_reads _) (by decide) (by decide) (by decide)
  have hten : parseSize unalignedPolicy.maxOutputSize = .ok 10 := by decide +kernel
  obtain rfl : 10 = targetBytes := Except.ok.inj (hten.symm.trans htarget)
  have hmem : (50 : Int) ∈ (compress sharpSample [0] unalignedPolicy).2 := by
    rw [compress_eq hten hdimensions rfl]
    simp [sharpSample, unalignedPolicy, defaultCompressionPolicy, compressLoop]
  have hbound := (hsearch.bounded 50 hmem).1
  exact absurd hbound (by decide)

end NestStarter.Storage
