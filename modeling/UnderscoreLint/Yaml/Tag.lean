/-!
# Tags

A tag says what a node is. It is written in the text, or follows from how the node is
written.
-/

namespace UnderscoreLint.Yaml

/-- What a node is. -/
inductive Tag where
  | null
  | bool
  | int
  | float
  | str
  /-- Bytes, written in base 64. -/
  | binary
  /-- A date, or a date and a time. -/
  | timestamp
  | seq
  | map
  | set
  /-- A list of pairs, written as a sequence of mappings with one entry each. -/
  | pairs
  /-- A key whose value is merged into the mapping around it. -/
  | merge
  /-- A key that stands for a default. -/
  | default
  /-- Any other tag. -/
  | unknown
  deriving DecidableEq, Repr

/-- The tag of that name. -/
def Tag.ofName (name : String) : Tag :=
  match name with
  | "tag:yaml.org,2002:null" => .null
  | "tag:yaml.org,2002:bool" => .bool
  | "tag:yaml.org,2002:int" => .int
  | "tag:yaml.org,2002:float" => .float
  | "tag:yaml.org,2002:str" => .str
  | "tag:yaml.org,2002:binary" => .binary
  | "tag:yaml.org,2002:timestamp" => .timestamp
  | "tag:yaml.org,2002:seq" => .seq
  | "tag:yaml.org,2002:map" => .map
  | "tag:yaml.org,2002:set" => .set
  | "tag:yaml.org,2002:omap" => .pairs
  | "tag:yaml.org,2002:pairs" => .pairs
  | "tag:yaml.org,2002:merge" => .merge
  | "tag:yaml.org,2002:value" => .default
  | _ => .unknown

end UnderscoreLint.Yaml
