/-
**Loading configurations.**

The extension of a file's name says in which format its configuration is written.

Main definitions:

* `EngineConfig.load` — the configuration in a file.
-/

import TraceReplay.Config.Format
import TraceReplay.FileTree
import TraceReplay.Text.Quoted
import TraceReplay.Toml.Reader
import TraceReplay.Yaml.Reader

set_option relaxedAutoImplicit false
set_option autoImplicit false

namespace TraceReplay

namespace EngineConfig

/-- The configuration that a document gives, if a text writes one in the format of a dialect. -/
def readAs {V : Type} (d : Dialect V) (document? : Option V) : Except ReplayError EngineConfig :=
  match document?.bind (ofDocument? d) with
  | some config => .ok config
  | none => .error (.malformed d.format)

/-- The configuration written by the text of a file at a path. -/
def ofFile (path text : String) : Except ReplayError EngineConfig :=
  match FilePath.extension? path with
  | some "json" => readAs Json.dialect (Json.parse? text)
  | some "yaml" | some "yml" =>
      match Yaml.parse? text with
      | some document => readAs document.dialect (some document.root)
      | none => .error (.malformed .yaml)
  | some "toml" => readAs Toml.dialect (Toml.parse? text)
  | other =>
      .error (.config s!"unsupported config format {quotedOption other} for {path}")

/-- The configuration in a file, which has to be one that can be used. -/
def load (files : FileTree) (path : String) : Except ReplayError EngineConfig := do
  match files.read path with
  | .error e => throw (.file e)
  | .ok text =>
      let config ← ofFile path text
      config.validate
      return config

end EngineConfig

end TraceReplay
