import QueryTree.Proofs.Codec.Transmission
import QueryTree.Proofs.Sql.Canonical

namespace QueryTree

end QueryTree
