import Datafuse.Basic
import Datafuse.Expression.Types
import Datafuse.Expression.Eval
import Datafuse.Expression.Fold
import Datafuse.Expression.Block
import Datafuse.Expression.Vectorize
import Datafuse.Functions.Boolean
import Datafuse.Functions.Conversion
import Datafuse.Index.Visit
import Datafuse.Index.Bloom
import Datafuse.Index.Build
import Datafuse.Index.Prune
import Datafuse.Index.Folding
import Datafuse.Index.Pipeline
import Datafuse.Meta.Snapshot
import Datafuse.Meta.UserStage
import Datafuse.Sharing.Auth
