/-!
Tables in insertion order: a repeated key keeps its first place and takes the last value.
-/

namespace CallAtlas

abbrev Table (κ ν : Type) := List (κ × ν)

namespace Table

variable {κ ν : Type} [DecidableEq κ]

def get? (key : κ) : Table κ ν → Option ν
  | [] => none
  | (k, v) :: rest => if k = key then some v else get? key rest

def put (key : κ) (value : ν) : Table κ ν → Table κ ν
  | [] => [(key, value)]
  | (k, v) :: rest => if k = key then (k, value) :: rest else (k, v) :: put key value rest

def modify (key : κ) (start : ν) (change : ν → ν) : Table κ ν → Table κ ν
  | [] => [(key, change start)]
  | (k, v) :: rest =>
    if k = key then (k, change v) :: rest else (k, v) :: modify key start change rest

def keys (table : Table κ ν) : List κ := table.map Prod.fst

def values (table : Table κ ν) : List ν := table.map Prod.snd

def ofPairs (pairs : List (κ × ν)) : Table κ ν :=
  pairs.foldl (fun table pair => put pair.1 pair.2 table) []

def merge (table more : Table κ ν) : Table κ ν :=
  more.foldl (fun table pair => put pair.1 pair.2 table) table

end Table

end CallAtlas
