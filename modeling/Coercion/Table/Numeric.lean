import Coercion.Table.Basic

/-!
# The numeric table

The table of the numeric types of a 64-bit target.  Widening inside a kind of numbers is a promotion, an integer to a
floating-point type that holds it is safe, and every way back loses something.
-/

namespace Coercion.Table

/-- A conversion whose way back loses something. -/
def oneWay (kind source target : String) : Rule := ⟨source, target, kind, "unsafe"⟩

/-- The numeric table. -/
def numeric : Table where
  name := "numeric"
  types? := some
    ["boolean", "int8", "int16", "int32", "int64", "uint8", "uint16", "uint32", "uint64", "float32", "float64",
      "complex64", "complex128"]
  aliases? := some
    [("bool", "boolean"), ("intp", "int64"), ("uintp", "uint64"), ("int", "int64"), ("float", "float64"),
      ("double", "float64")]
  rules? := some
    [oneWay "safe" "boolean" "int8", oneWay "safe" "boolean" "uint8",
      oneWay "promote" "int8" "int16", oneWay "promote" "int16" "int32", oneWay "promote" "int32" "int64",
      oneWay "promote" "uint8" "uint16", oneWay "promote" "uint16" "uint32", oneWay "promote" "uint32" "uint64",
      oneWay "safe" "uint8" "int16", oneWay "safe" "uint16" "int32", oneWay "safe" "uint32" "int64",
      oneWay "unsafe" "uint64" "int64",
      oneWay "safe" "int16" "float32", oneWay "safe" "int32" "float64", oneWay "unsafe" "int32" "float32",
      oneWay "unsafe" "int64" "float64", oneWay "unsafe" "uint64" "float64",
      oneWay "promote" "float32" "float64", oneWay "promote" "complex64" "complex128",
      oneWay "safe" "float32" "complex64", oneWay "safe" "float64" "complex128"]
  functions? := some
    [⟨"add", some ["int64, int64", "uint64, uint64", "float64, float64", "complex128, complex128"]⟩,
      ⟨"abs", some ["int64", "float32", "float64"]⟩,
      ⟨"sqrt", some ["float32", "float64", "complex128"]⟩]

end Coercion.Table
