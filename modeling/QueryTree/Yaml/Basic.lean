namespace QueryTree

-- How a scalar is to be taken: by its looks, as text whatever it looks like, or as its tag says.
inductive ScalarKind where
  | plain
  | text
  | tagged (tag : String)
deriving DecidableEq, Inhabited

inductive Yaml where
  | scalar (text : String) (kind : ScalarKind)
  | sequence (items : List Yaml)
  | mapping (entries : List (Yaml × Yaml))
deriving Inhabited

namespace Yaml

-- The scalar that is left out.
def empty : Yaml := .scalar "" .plain

-- A node under a tag. Tags of collections say nothing new, and a lone mark leaves all as it is.
def withTag (tag : String) : Yaml → Yaml
  | .scalar s kind =>
    if tag == "!" then .scalar s kind
    else if tag == "!!str" then .scalar s .text
    else .scalar s (.tagged tag)
  | y => y

-- Two keys that a mapping may not both have.
def sameKey : Yaml → Yaml → Bool
  | .scalar a _, .scalar b _ => a == b
  | .sequence _, .sequence _ => true
  | .mapping _, .mapping _ => true
  | _, _ => false

def distinctKeys : List Yaml → Bool
  | [] => true
  | k :: ks => !(ks.any (sameKey k)) && distinctKeys ks

-- Whether a key stands for the entries of other mappings.
def isMerge : Yaml → Bool
  | .scalar "<<" kind => kind != .text
  | _ => false

-- The first entries, and of the others those with further keys.
def union (own others : List (Yaml × Yaml)) : List (Yaml × Yaml) :=
  own ++ others.filter fun (k, _) => !(own.any fun (l, _) => sameKey k l)

-- The entries that a mapping or a sequence of mappings brings into another mapping. Those of
-- earlier mappings win.
def mergeable? : Yaml → Option (List (Yaml × Yaml))
  | .mapping entries => some entries
  | .sequence items =>
    items.foldrM (fun y others =>
      match y with
      | .mapping entries => some (union entries others)
      | _ => none) []
  | .scalar .. => none

-- The mapping of some entries, none named twice. What is merged into it comes after its own.
def ofEntries? (entries : List (Yaml × Yaml)) : Option Yaml :=
  if distinctKeys (entries.map (·.1)) then
    let own := entries.filter fun (k, _) => !k.isMerge
    match entries.find? fun (k, _) => k.isMerge with
    | none => some (.mapping own)
    | some (_, v) => do return .mapping (union own (← mergeable? v))
  else none

end Yaml
end QueryTree
