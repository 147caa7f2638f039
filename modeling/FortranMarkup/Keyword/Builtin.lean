/-!
# Words of the language

The words that Fortran source is styled with unless other lists are given: the words of statements
and specifiers, and the names of the intrinsic procedures.
-/

namespace FortranMarkup.Builtin

/-- The words of statements, attributes and specifiers. -/
def keywords : List String :=
  ["abstract", "access", "action", "advance", "all", "allocatable", "allocate", "apostrophe",
    "assign", "assignment", "associate", "asynchronous", "backspace", "bind", "blank", "block",
    "blockdata", "call", "case", "change", "character", "class", "close", "codimension", "common",
    "complex", "concurrent", "contains", "contiguous", "continue", "critical", "cycle", "data",
    "deallocate", "decimal", "default", "deferred", "delim", "dimension", "direct", "do", "double",
    "doubleprecision", "elemental", "else", "elseif", "elsewhere", "encoding", "end",
    "endassociate", "endblock", "endblockdata", "endcritical", "enddo", "endenum", "endfile",
    "endforall", "endfunction", "endif", "endinterface", "endmodule", "endprocedure", "endprogram",
    "endselect", "endsubmodule", "endsubroutine", "endteam", "endtype", "endwhere", "entry", "enum",
    "enumerator", "eor", "equivalence", "err", "error", "exist", "exit", "extends", "external",
    "file", "final", "flush", "fmt", "forall", "form", "format", "formatted", "function", "generic",
    "go", "goto", "id", "if", "images", "implicit", "import", "impure", "in", "include", "inout",
    "inquire", "integer", "intent", "interface", "intrinsic", "iolength", "iomsg", "iostat", "is",
    "kind", "len", "lock", "logical", "memory", "module", "name", "named", "namelist", "nextrec",
    "nml", "non_intrinsic", "non_overridable", "none", "nopass", "nullify", "number", "only",
    "open", "opened", "operator", "optional", "out", "pad", "parameter", "pass", "pause", "pending",
    "pointer", "pos", "position", "precision", "print", "private", "procedure", "program",
    "protected", "public", "pure", "read", "readwrite", "real", "rec", "recl", "recursive",
    "result", "return", "rewind", "save", "select", "selectcase", "selecttype", "sequence",
    "sequential", "sign", "size", "stat", "status", "stop", "stream", "submodule", "subroutine",
    "sync", "target", "team", "then", "to", "type", "unformatted", "unit", "unlock", "use", "value",
    "volatile", "wait", "where", "while", "write"]

/-- The names of the intrinsic procedures. -/
def intrinsics : List String :=
  ["abs", "achar", "acos", "acosh", "adjustl", "adjustr", "aimag", "aint", "all", "allocated",
    "anint", "any", "asin", "asinh", "associated", "atan", "atan2", "atanh", "bessel_j0",
    "bessel_j1", "bessel_jn", "bessel_y0", "bessel_y1", "bessel_yn", "bge", "bgt", "bit_size",
    "ble", "blt", "btest", "ceiling", "char", "cmplx", "command_argument_count", "conjg", "cos",
    "cosh", "count", "cpu_time", "cshift", "date_and_time", "dble", "digits", "dim", "dot_product",
    "dprod", "dshiftl", "dshiftr", "eoshift", "epsilon", "erf", "erfc", "erfc_scaled",
    "execute_command_line", "exp", "exponent", "extends_type_of", "findloc", "floor", "fraction",
    "gamma", "get_command", "get_command_argument", "get_environment_variable", "huge", "hypot",
    "iachar", "iall", "iand", "iany", "ibclr", "ibits", "ibset", "ichar", "ieor", "image_index",
    "index", "int", "ior", "iparity", "is_contiguous", "is_iostat_end", "is_iostat_eor", "ishft",
    "ishftc", "kind", "lbound", "lcobound", "leadz", "len", "len_trim", "lge", "lgt", "lle", "llt",
    "log", "log10", "log_gamma", "logical", "maskl", "maskr", "matmul", "max", "maxexponent",
    "maxloc", "maxval", "merge", "merge_bits", "min", "minexponent", "minloc", "minval", "mod",
    "modulo", "move_alloc", "mvbits", "nearest", "new_line", "nint", "norm2", "not", "null",
    "num_images", "pack", "parity", "popcnt", "poppar", "precision", "present", "product", "radix",
    "random_number", "random_seed", "range", "rank", "real", "repeat", "reshape", "rrspacing",
    "same_type_as", "scale", "scan", "selected_char_kind", "selected_int_kind",
    "selected_real_kind", "set_exponent", "shape", "shifta", "shiftl", "shiftr", "sign", "sin",
    "sinh", "size", "spacing", "spread", "sqrt", "storage_size", "sum", "system_clock", "tan",
    "tanh", "this_image", "tiny", "trailz", "transfer", "transpose", "trim", "ubound", "ucobound",
    "unpack", "verify"]

end FortranMarkup.Builtin
