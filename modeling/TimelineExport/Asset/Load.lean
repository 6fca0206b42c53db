import TimelineExport.Asset.Acquire
import TimelineExport.Asset.Download

/-!
# Loading a source

A source is a path, a `file` URL, or an address from which it is downloaded. If it belongs to an
element that may have sound, its file is probed.
-/

namespace TimelineExport

/-- What is outside of an export: the network, what the probe program says about a path, and the
waits that passed so far. -/
structure Outside (γ : Type) where
  network : Network γ := {}
  probe : String → ProbeRun
  waits : List Float := []

/-- How sources are loaded: the retries of downloads, and the place from which paths are seen. -/
structure LoadOptions where
  retries : RetryPolicy Float
  cwd : Place := []

section
variable {γ : Type} [FileContent γ]

/-- What is found at a path, with the result of a probe if one is wanted. What was downloaded is
written by the cache. -/
def inspect (source path : String) (content : γ) (downloaded : Bool) (run : Option ProbeRun) :
    Except AssetFault (LoadedAsset γ) :=
  let loaded (hasAudio : Option Bool) : LoadedAsset γ :=
    { path, size := FileContent.size content, owned := downloaded, hasAudio
      written := if downloaded then some content else none }
  match run with
  | none => .ok (loaded none)
  | some run =>
    match run.readMedia path with
    | .ok info => .ok (loaded (some info.hasAudio))
    | .error (.failed message) => .error (.resolution (.unreadableAsset source message))
    | .error fault => .error (.probe fault)

/-- Loads a source, for which a download would be written to the given path. -/
def loadSource (options : LoadOptions) (files : FileTree γ) (probed : Bool) (source target : String)
    (o : Outside γ) : Except AssetFault (LoadedAsset γ) × Outside γ :=
  let inspected (path : String) (content : γ) (downloaded : Bool) :=
    inspect source path content downloaded (if probed then some (o.probe path) else none)
  match SourceUrl.read source with
  | .error fault => (.error (.url fault), o)
  | .ok url =>
    if url.scheme = "http" ∨ url.scheme = "https" then
      let (d, network) := Download.fetch options.retries source
        (files.content? (resolvePath options.cwd target)) o.network
      let o := { o with network, waits := o.waits ++ d.waits }
      match d.phase, d.target with
      | .ended (.ok ()), some content => (inspected target content true, o)
      | .ended (.error fault), _ => (.error fault, o)
      | _, _ => (.error (.resolution (.asset source "file not found")), o)
    else
      let path := if url.scheme = "file" then percentDecode url.path else source
      match files.contentAt? options.cwd path with
      | none => (.error (.resolution (.asset source "file not found")), o)
      | some content => (inspected path content false, o)

end

end TimelineExport
