import Skattr.Core.Daemon.SendFile
import Skattr.Lib.Container

/-!
# Metadata in images

`strip_jpeg` and `strip_png` over the parts that the image library gives them. The library is an
`ImageFormat`, assumed `Lawful`: what is left of an image is written so that it reads the same, and
clearing its EXIF data or ICC profile takes out the segments or chunks that hold it. Two images with
the same image data should look the same once they are stripped. PNG images do. JPEG images do when
the segments other than EXIF and ICC agree: XMP, IPTC and comments are sent as they are
(`stripped_equal_iff`).
-/

namespace Skattr.Core.Attachment

open Lib Daemon

variable {G : Type}

/-- A format of the image library: its parser and writer, and what `set_exif(None)` and
`set_icc_profile(None)` leave of an image. -/
structure ImageFormat (Part : Type) extends Container Part where
  clearExif : List Part → List Part
  clearIccProfile : List Part → List Part

/-- The parts that hold the EXIF data or the ICC profile are taken out, and no others. -/
structure ImageFormat.Lawful {Part : Type} (format : ImageFormat Part)
    (isExif isIcc : Part → Bool) : Prop where
  faithful : format.Faithful
  clearExif : ∀ parts, format.clearExif parts = parts.filter fun part => !isExif part
  clearIccProfile : ∀ parts, format.clearIccProfile parts = parts.filter fun part => !isIcc part

def ascii (text : String) : Bytes := text.toUTF8.data.toList

/-! ### JPEG -/

/-- A segment: its marker, its contents, and the scan data that follows it, if any. -/
structure JpegSegment where
  marker : UInt8
  contents : Bytes
  entropy : Option Bytes
  deriving DecidableEq

def APP1 : UInt8 := 0xE1

def APP2 : UInt8 := 0xE2

def APP13 : UInt8 := 0xED

def COM : UInt8 := 0xFE

namespace JpegSegment

def isExif (segment : JpegSegment) : Bool :=
  segment.marker == APP1 && (ascii "Exif" ++ [0, 0]).isPrefixOf segment.contents

def isIcc (segment : JpegSegment) : Bool :=
  segment.marker == APP2 && (ascii "ICC_PROFILE" ++ [0]).isPrefixOf segment.contents

/-- The segments that describe the image and are not part of it: EXIF and XMP in `APP1`, the ICC
profile, IPTC in `APP13`, and comments. -/
def isMetadata (segment : JpegSegment) : Bool :=
  segment.marker == APP1 || segment.isIcc || segment.marker == APP13 || segment.marker == COM

def isStripped (segment : JpegSegment) : Bool := segment.isExif || segment.isIcc

theorem isMetadata_of_isStripped (segment : JpegSegment) (h : segment.isStripped) :
    segment.isMetadata := by
  rw [isStripped, Bool.or_eq_true] at h
  cases h with
  | inl hexif =>
    have hmarker : (segment.marker == APP1) = true := (Bool.and_eq_true_iff.mp hexif).1
    simp [isMetadata, hmarker]
  | inr hicc => simp [isMetadata, hicc]

end JpegSegment

def stripJpeg (format : ImageFormat JpegSegment) (bytes : Bytes) : Except String Bytes := do
  let jpeg ← format.parse bytes
  let jpeg := format.clearExif jpeg
  let jpeg := format.clearIccProfile jpeg
  return format.emit jpeg

/-! ### PNG -/

structure PngChunk where
  kind : Bytes
  contents : Bytes
  deriving DecidableEq

def PNG_METADATA_CHUNKS : List Bytes :=
  [ascii "tEXt", ascii "zTXt", ascii "iTXt", ascii "eXIf", ascii "tIME", ascii "iCCP"]

def PngChunk.isMetadata (chunk : PngChunk) : Bool :=
  PNG_METADATA_CHUNKS.any fun kind => kind == chunk.kind

def PngChunk.isExif (chunk : PngChunk) : Bool := chunk.kind == ascii "eXIf"

def PngChunk.isIcc (chunk : PngChunk) : Bool := chunk.kind == ascii "iCCP"

def stripPng (format : ImageFormat PngChunk) (bytes : Bytes) : Except String Bytes := do
  let png ← format.parse bytes
  let png := format.clearExif png
  let png := format.clearIccProfile png
  let png := png.filter fun chunk => !chunk.isMetadata
  return format.emit png

/-! ### Stripping a file -/

def withImages (deps : FileDeps G) (jpeg : ImageFormat JpegSegment) (png : ImageFormat PngChunk) :
    FileDeps G :=
  { deps with stripJpeg := stripJpeg jpeg, stripPng := stripPng png }

/-- The file is taken for a JPEG image and has these segments. -/
structure IsJpeg (format : ImageFormat JpegSegment) (bytes : Bytes) (mime : String)
    (segments : List JpegSegment) : Prop where
  kind : detectKind bytes mime = .jpeg
  parsed : format.parse bytes = .ok segments

/-- The file is taken for a PNG image and has these chunks. -/
structure IsPng (format : ImageFormat PngChunk) (bytes : Bytes) (mime : String)
    (chunks : List PngChunk) : Prop where
  kind : detectKind bytes mime = .png
  parsed : format.parse bytes = .ok chunks

def jpegData (segments : List JpegSegment) : List JpegSegment :=
  segments.filter fun segment => !segment.isMetadata

def pngData (chunks : List PngChunk) : List PngChunk :=
  chunks.filter fun chunk => !chunk.isMetadata

/-- The segments that stripping leaves: the image, XMP, IPTC and comments. -/
def jpegKept (segments : List JpegSegment) : List JpegSegment :=
  segments.filter fun segment => !segment.isStripped

variable {jpeg : ImageFormat JpegSegment} {png : ImageFormat PngChunk} {first second : Bytes}
  {mime mime' : String} {segments segments' : List JpegSegment} {chunks chunks' : List PngChunk}

theorem stripMetadata_jpeg (hjpeg : jpeg.Lawful JpegSegment.isExif JpegSegment.isIcc)
    (deps : FileDeps G) (h : IsJpeg jpeg first mime segments) :
    stripMetadata (withImages deps jpeg png) first mime =
      .ok (jpeg.emit (jpegKept segments), "image/jpeg") := by
  have hkept : jpeg.clearIccProfile (jpeg.clearExif segments) = jpegKept segments := by
    rw [hjpeg.clearExif, hjpeg.clearIccProfile, List.filter_filter]
    refine List.filter_congr fun segment _ => ?_
    rw [JpegSegment.isStripped, Bool.not_or, Bool.and_comm]
  have hstrip : (withImages deps jpeg png).stripJpeg first =
      .ok (jpeg.emit (jpegKept segments)) := by
    simp only [withImages, stripJpeg, h.parsed, ← hkept]
    rfl
  simp only [stripMetadata, h.kind, hstrip]

theorem stripMetadata_png (hpng : png.Lawful PngChunk.isExif PngChunk.isIcc) (deps : FileDeps G)
    (h : IsPng png first mime chunks) :
    stripMetadata (withImages deps jpeg png) first mime =
      .ok (png.emit (pngData chunks), "image/png") := by
  have hkept : ((png.clearIccProfile (png.clearExif chunks)).filter fun chunk =>
      !chunk.isMetadata) = pngData chunks := by
    rw [hpng.clearExif, hpng.clearIccProfile]
    -- the list of metadata chunks has the two kinds again
    have hmetadata (chunk : PngChunk) (h : chunk.kind ∈ PNG_METADATA_CHUNKS) : chunk.isMetadata :=
      List.any_eq_true.mpr ⟨_, h, beq_self_eq_true _⟩
    refine (Container.filter_hidden_filter_drop (fun chunk hicc => hmetadata chunk ?_) _).trans
      (Container.filter_hidden_filter_drop (fun chunk hexif => hmetadata chunk ?_) _)
    · rw [eq_of_beq hicc]
      decide
    · rw [eq_of_beq hexif]
      decide
  have hstrip : (withImages deps jpeg png).stripPng first = .ok (png.emit (pngData chunks)) := by
    simp only [withImages, stripPng, h.parsed, ← hkept]
    rfl
  simp only [stripMetadata, h.kind, hstrip]

theorem stripped_jpeg_eq_iff (hjpeg : jpeg.Lawful JpegSegment.isExif JpegSegment.isIcc)
    (deps : FileDeps G) (h : IsJpeg jpeg first mime segments)
    (h' : IsJpeg jpeg second mime' segments') :
    stripMetadata (withImages deps jpeg png) first mime =
        stripMetadata (withImages deps jpeg png) second mime' ↔
      jpegKept segments = jpegKept segments' := by
  rw [stripMetadata_jpeg hjpeg deps h, stripMetadata_jpeg hjpeg deps h', Except.ok.injEq,
    Prod.mk.injEq, and_iff_left rfl]
  exact Container.emit_eq_iff hjpeg.faithful h.parsed h'.parsed List.filter_sublist
    List.filter_sublist

theorem stripped_jpeg_data (hjpeg : jpeg.Lawful JpegSegment.isExif JpegSegment.isIcc)
    (deps : FileDeps G) (h : IsJpeg jpeg first mime segments) :
    ∃ out kept, stripMetadata (withImages deps jpeg png) first mime = .ok (out, "image/jpeg") ∧
      jpeg.parse out = .ok kept ∧ jpegData kept = jpegData segments :=
  ⟨_, _, stripMetadata_jpeg hjpeg deps h, hjpeg.faithful _ _ _ h.parsed List.filter_sublist,
    Container.filter_hidden_filter_drop JpegSegment.isMetadata_of_isStripped segments⟩

theorem stripped_png_data (hpng : png.Lawful PngChunk.isExif PngChunk.isIcc) (deps : FileDeps G)
    (h : IsPng png first mime chunks) :
    ∃ out kept, stripMetadata (withImages deps jpeg png) first mime = .ok (out, "image/png") ∧
      png.parse out = .ok kept ∧ pngData kept = pngData chunks :=
  ⟨_, _, stripMetadata_png hpng deps h, hpng.faithful _ _ _ h.parsed List.filter_sublist,
    Container.filter_hidden_filter_drop (fun _ hdrop => hdrop) chunks⟩

theorem jpegKept_eq_jpegData (h : ∀ segment ∈ segments, segment.isMetadata → segment.isStripped) :
    jpegKept segments = jpegData segments := by
  refine List.filter_congr fun segment hmem => congrArg Bool.not ?_
  rw [Bool.eq_iff_iff]
  exact ⟨segment.isMetadata_of_isStripped, h segment hmem⟩

/-- Two JPEG images with the same image data look the same once they are stripped exactly when what
they hold besides EXIF and ICC is the same, as it is when neither holds any other metadata; two PNG
images with the same image data always do. The image data itself is unchanged. -/
theorem stripped_equal_iff (hjpeg : jpeg.Lawful JpegSegment.isExif JpegSegment.isIcc)
    (hpng : png.Lawful PngChunk.isExif PngChunk.isIcc) (deps : FileDeps G)
    (first second : Bytes) (mime mime' : String) :
    (∀ segments segments', IsJpeg jpeg first mime segments → IsJpeg jpeg second mime' segments' →
      jpegData segments = jpegData segments' →
      (stripMetadata (withImages deps jpeg png) first mime =
          stripMetadata (withImages deps jpeg png) second mime' ↔
        jpegKept segments = jpegKept segments') ∧
      ((∀ segment ∈ segments ++ segments', segment.isMetadata → segment.isStripped) →
        jpegKept segments = jpegKept segments')) ∧
    (∀ chunks chunks', IsPng png first mime chunks → IsPng png second mime' chunks' →
      pngData chunks = pngData chunks' →
      stripMetadata (withImages deps jpeg png) first mime =
        stripMetadata (withImages deps jpeg png) second mime') ∧
    (∀ segments, IsJpeg jpeg first mime segments →
      ∃ out kept, stripMetadata (withImages deps jpeg png) first mime = .ok (out, "image/jpeg") ∧
        jpeg.parse out = .ok kept ∧ jpegData kept = jpegData segments) ∧
    (∀ chunks, IsPng png first mime chunks →
      ∃ out kept, stripMetadata (withImages deps jpeg png) first mime = .ok (out, "image/png") ∧
        png.parse out = .ok kept ∧ pngData kept = pngData chunks) := by
  refine ⟨fun segments segments' h h' hdata => ⟨stripped_jpeg_eq_iff hjpeg deps h h', ?_⟩, ?_,
    fun segments h => stripped_jpeg_data hjpeg deps h,
    fun chunks h => stripped_png_data hpng deps h⟩
  · intro honly
    have hkept := jpegKept_eq_jpegData fun segment hmem =>
      honly segment (List.mem_append_left _ hmem)
    have hkept' := jpegKept_eq_jpegData fun segment hmem =>
      honly segment (List.mem_append_right _ hmem)
    rw [hkept, hkept', hdata]
  · intro chunks chunks' h h' hdata
    rw [stripMetadata_png hpng deps h, stripMetadata_png hpng deps h', hdata]

/-! ### A photo with a comment -/

def pixels : JpegSegment := ⟨0xDA, [1, 2], some [3, 4]⟩

def exifSegment : JpegSegment := ⟨APP1, ascii "Exif" ++ [0, 0, 7], none⟩

def comment (text : String) : JpegSegment := ⟨COM, ascii text, none⟩

def sampleJpeg : ImageFormat JpegSegment where
  toContainer := .indexed [0xFF, 0xD8, 0xFF] [pixels, exifSegment, comment "home", comment "work"]
  clearExif segments := segments.filter fun segment => !segment.isExif
  clearIccProfile segments := segments.filter fun segment => !segment.isIcc

def samplePng : ImageFormat PngChunk where
  toContainer := .indexed [0x89, 0x50, 0x4E, 0x47, 0x0D, 0x0A, 0x1A, 0x0A]
    [⟨ascii "IDAT", [1]⟩, ⟨ascii "tEXt", ascii "home"⟩, ⟨ascii "tEXt", ascii "work"⟩]
  clearExif chunks := chunks.filter fun chunk => !chunk.isExif
  clearIccProfile chunks := chunks.filter fun chunk => !chunk.isIcc

/-- A photo with EXIF data is sent like the photo without them. -/
theorem exif_hidden :
    stripMetadata (withImages plainDeps sampleJpeg samplePng) [0xFF, 0xD8, 0xFF, 0, 1]
        "application/octet-stream" =
      stripMetadata (withImages plainDeps sampleJpeg samplePng) [0xFF, 0xD8, 0xFF, 0]
        "application/octet-stream" :=
  have hall := stripped_equal_iff
    (⟨Container.indexed_faithful (by decide), fun _ => rfl, fun _ => rfl⟩ : sampleJpeg.Lawful _ _)
    (⟨Container.indexed_faithful (by decide), fun _ => rfl, fun _ => rfl⟩ : samplePng.Lawful _ _)
    plainDeps [0xFF, 0xD8, 0xFF, 0, 1] [0xFF, 0xD8, 0xFF, 0] "application/octet-stream"
    "application/octet-stream"
  (hall.1 [pixels, exifSegment] [pixels] ⟨by decide, by decide⟩ ⟨by decide, by decide⟩
    (by decide)).1.mpr (by decide)

/-- Two photos that differ in a comment only are sent as different bytes; the text chunks of a PNG
image are taken out. -/
theorem comment_shows :
    IsJpeg sampleJpeg [0xFF, 0xD8, 0xFF, 0, 2] "application/octet-stream"
      [pixels, comment "home"] ∧
    IsJpeg sampleJpeg [0xFF, 0xD8, 0xFF, 0, 3] "application/octet-stream"
      [pixels, comment "work"] ∧
    jpegData [pixels, comment "home"] = jpegData [pixels, comment "work"] ∧
    stripMetadata (withImages plainDeps sampleJpeg samplePng) [0xFF, 0xD8, 0xFF, 0, 2]
        "application/octet-stream" = .ok ([0xFF, 0xD8, 0xFF, 0, 2], "image/jpeg") ∧
    stripMetadata (withImages plainDeps sampleJpeg samplePng) [0xFF, 0xD8, 0xFF, 0, 3]
        "application/octet-stream" = .ok ([0xFF, 0xD8, 0xFF, 0, 3], "image/jpeg") ∧
    stripMetadata (withImages plainDeps sampleJpeg samplePng)
        [0x89, 0x50, 0x4E, 0x47, 0x0D, 0x0A, 0x1A, 0x0A, 0, 1] "application/octet-stream" =
      .ok ([0x89, 0x50, 0x4E, 0x47, 0x0D, 0x0A, 0x1A, 0x0A, 0], "image/png") := by
  refine ⟨⟨by decide, by decide⟩, ⟨by decide, by decide⟩, by decide, by decide, by decide,
    by decide⟩

end Skattr.Core.Attachment
